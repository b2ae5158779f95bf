import Mathlib.Init

/-!
# Types shared by the two clients (`speech_common.h`, `speech_connection.h`)
-/

namespace OpenVoice

/-- Contents of a `std::string`. -/
abbrev Bytes := List (BitVec 8)

inductive Lang where
  | zh | en
deriving DecidableEq, Repr

inductive Codec where
  | pcm | opu | opu2 | mp3
deriving DecidableEq, Repr

inductive VadMode where
  | local | cloud
deriving DecidableEq, Repr

/-- What `SpeechConnection::send` and `SpeechConnection::recv` return. -/
inductive ConnectionOpResult where
  | success | invalidPbObj | connectionNotAvailable | notReady | invalidPbData
  | connectionBroken | timeout
deriving DecidableEq, Repr

end OpenVoice

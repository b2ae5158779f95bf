import OpenVoice.Connection.Model
import OpenVoice.Nanopb.RoundTrip

/-!
# The strings of the handshake (`generate_sign`, `get_server_uri`, `auth`)

Every piece of the text that is signed goes through a buffer of 64 bytes, and so does the
address of the server.  What does not fit is cut.
-/

namespace OpenVoice

open Lib

namespace SpeechConnection

def apiVersion : Bytes := ascii "2"

/-- `sizeof(buf)`. -/
def bufSize : Nat := 64

/-- `sign_src` in `generate_sign`. -/
def signSrc (key devtype devid svc version ts secret : Bytes) : Bytes :=
  let signSrc := snprintf bufSize (ascii "key=" ++ cStr key)
  let signSrc := signSrc ++ snprintf bufSize (ascii "&device_type_id=" ++ cStr devtype)
  let signSrc := signSrc ++ snprintf bufSize (ascii "&device_id=" ++ cStr devid)
  let signSrc := signSrc ++ snprintf bufSize (ascii "&service=" ++ cStr svc)
  let signSrc := signSrc ++ snprintf bufSize (ascii "&version=" ++ cStr version)
  let signSrc := signSrc ++ snprintf bufSize (ascii "&time=" ++ cStr ts)
  signSrc ++ snprintf bufSize (ascii "&secret=" ++ cStr secret)

/-- `generate_sign`; `md5` makes the 16 bytes of `MD5_Final` of a text. -/
def generateSign (md5 : Bytes → Bytes) (key devtype devid svc version ts secret : Bytes) : Bytes :=
  snprintf bufSize ((md5 (signSrc key devtype devid svc version ts secret)).flatMap hex)

def getServerUri (options : PrepareOptions) : Bytes :=
  snprintf bufSize (ascii "wss://" ++ cStr options.host ++ ascii ":" ++
    decimal options.port.toNat ++ cStr options.branch)

/-- `timestamp`, of what `gettimeofday` reports. -/
def timestamp (tvSec tvUsec : BitVec 64) : Bytes :=
  snprintf bufSize (decimal (tvSec * 1000000 + tvUsec).toNat)

/-- The setters that `auth` calls. -/
def authCalls (md5 : Bytes → Bytes) (options : PrepareOptions) (svc version ts : Bytes) :
    List Nanopb.AuthRequest.Call :=
  [ .setKey options.key,
    .setDeviceTypeId options.deviceTypeId,
    .setDeviceId options.deviceId,
    .setService (cStr svc),
    .setVersion (cStr version),
    .setTimestamp ts,
    .setSign (generateSign md5 options.key options.deviceTypeId options.deviceId svc version ts
      options.secret) ]

/-- `auth`, up to what it sends; none if it returns false.  `svc` is `service_type_`. -/
def authBuf (md5 : Bytes → Bytes) (options : PrepareOptions) (svc version ts : Bytes) :
    Option Bytes :=
  if options.key = [] ∨ options.deviceTypeId = [] ∨ options.deviceId = [] ∨
      options.secret = [] then none
  else
    let req := (authCalls md5 options svc version ts).foldl Nanopb.AuthRequest.call .new
    match req.serializeToString Nanopb.AuthRequest.fields [] with
    | (true, buf) => some buf
    | (false, _) => none

end SpeechConnection

/-! ### What the handshake is to say -/

namespace Handshake

open SpeechConnection

/-- The names of the values in the text that is signed. -/
def signText (key devtype devid svc version ts secret : Bytes) : Bytes :=
  ascii "key=" ++ key ++ ascii "&device_type_id=" ++ devtype ++ ascii "&device_id=" ++ devid ++
    ascii "&service=" ++ svc ++ ascii "&version=" ++ version ++ ascii "&time=" ++ ts ++
    ascii "&secret=" ++ secret

def uriText (options : PrepareOptions) : Bytes :=
  ascii "wss://" ++ options.host ++ ascii ":" ++ decimal options.port.toNat ++ options.branch

/-- No string has a NUL. -/
structure NoNul (options : PrepareOptions) (svc version ts : Bytes) : Prop where
  host : 0 ∉ options.host
  branch : 0 ∉ options.branch
  key : 0 ∉ options.key
  deviceTypeId : 0 ∉ options.deviceTypeId
  deviceId : 0 ∉ options.deviceId
  secret : 0 ∉ options.secret
  svc : 0 ∉ svc
  version : 0 ∉ version
  ts : 0 ∉ ts

instance (options : PrepareOptions) (svc version ts : Bytes) :
    Decidable (NoNul options svc version ts) :=
  decidable_of_iff (0 ∉ options.host ∧ 0 ∉ options.branch ∧ 0 ∉ options.key ∧
      0 ∉ options.deviceTypeId ∧ 0 ∉ options.deviceId ∧ 0 ∉ options.secret ∧ 0 ∉ svc ∧
      0 ∉ version ∧ 0 ∉ ts)
    ⟨fun ⟨h₁, h₂, h₃, h₄, h₅, h₆, h₇, h₈, h₉⟩ => ⟨h₁, h₂, h₃, h₄, h₅, h₆, h₇, h₈, h₉⟩,
      fun ⟨h₁, h₂, h₃, h₄, h₅, h₆, h₇, h₈, h₉⟩ => ⟨h₁, h₂, h₃, h₄, h₅, h₆, h₇, h₈, h₉⟩⟩

/-- The values the server reads in the request are the full ones, and they are the ones that are
    signed; the address is the full one. -/
structure Complete (md5 : Bytes → Bytes) (options : PrepareOptions) (svc version ts : Bytes) :
    Prop where
  signed : signSrc options.key options.deviceTypeId options.deviceId svc version ts options.secret
    = signText options.key options.deviceTypeId options.deviceId svc version ts options.secret
  sent : ∀ buf ∈ authBuf md5 options svc version ts, ∃ sign,
    Proto.AuthRequest.decode buf = some ⟨options.key, options.deviceTypeId, options.deviceId, svc,
      version, ts, sign⟩
  uri : getServerUri options = uriText options

/-- Each value fits the buffer with its name. -/
structure Fits (options : PrepareOptions) (svc version ts : Bytes) : Prop where
  key : options.key.length ≤ 59
  deviceTypeId : options.deviceTypeId.length ≤ 47
  deviceId : options.deviceId.length ≤ 52
  svc : svc.length ≤ 54
  version : version.length ≤ 54
  ts : ts.length ≤ 57
  secret : options.secret.length ≤ 55
  uri : options.host.length + (decimal options.port.toNat).length + options.branch.length ≤ 56

/-! ### The text that is signed -/

section

variable {options : PrepareOptions} {svc version ts : Bytes}

/-- The pieces that go through the buffer. -/
def pieces (options : PrepareOptions) (svc version ts : Bytes) : List Bytes :=
  [ ascii "key=" ++ options.key,
    ascii "&device_type_id=" ++ options.deviceTypeId,
    ascii "&device_id=" ++ options.deviceId,
    ascii "&service=" ++ svc,
    ascii "&version=" ++ version,
    ascii "&time=" ++ ts,
    ascii "&secret=" ++ options.secret ]

theorem signSrc_eq (h : NoNul options svc version ts) :
    signSrc options.key options.deviceTypeId options.deviceId svc version ts options.secret
      = snprintfAll bufSize (pieces options svc version ts) := by
  unfold signSrc
  rw [cStr_eq_self h.key, cStr_eq_self h.deviceTypeId, cStr_eq_self h.deviceId,
    cStr_eq_self h.svc, cStr_eq_self h.version, cStr_eq_self h.ts, cStr_eq_self h.secret]
  simp [snprintfAll, pieces]

theorem signText_eq :
    signText options.key options.deviceTypeId options.deviceId svc version ts options.secret
      = (pieces options svc version ts).flatten := by
  simp [signText, pieces]

theorem signed_iff (h : NoNul options svc version ts) :
    signSrc options.key options.deviceTypeId options.deviceId svc version ts options.secret
        = signText options.key options.deviceTypeId options.deviceId svc version ts
          options.secret ↔
      ∀ piece ∈ pieces options svc version ts, piece.length ≤ 63 := by
  rw [signSrc_eq h, signText_eq]
  exact snprintfAll_eq_iff bufSize _

/-! ### The request -/

/-- The server reads the values that were set. -/
theorem decode_authBuf {md5 : Bytes → Bytes} {buf : Bytes}
    (h : authBuf md5 options svc version ts = some buf) :
    Proto.AuthRequest.decode buf = some ⟨options.key, options.deviceTypeId, options.deviceId,
      cStr svc, cStr version, ts, generateSign md5 options.key options.deviceTypeId
        options.deviceId svc version ts options.secret⟩ := by
  have hserializes := Nanopb.serializes_of_pbEncode (Nanopb.AuthRequest.pbEncode_eq
    (Nanopb.AuthRequest.holds_calls (authCalls md5 options svc version ts)) rfl)
    (Proto.AuthRequest.decode_encode _)
  have hdecode := hserializes.decode_eq []
  unfold authBuf at h
  split at h
  · cases h
  · dsimp only at h
    split at h
    · next buf' hbuf =>
        cases h
        rw [hbuf] at hdecode
        exact hdecode rfl
    · cases h

/-! ### The address -/

theorem uri_iff (h : NoNul options svc version ts) :
    getServerUri options = uriText options ↔
      options.host.length + (decimal options.port.toNat).length + options.branch.length ≤ 56 := by
  have hlength : (uriText options).length = 7 + (options.host.length +
      (decimal options.port.toNat).length + options.branch.length) := by
    have hwss : (ascii "wss://").length = 6 := rfl
    have hcolon : (ascii ":").length = 1 := rfl
    simp only [uriText, List.length_append, hwss, hcolon]
    omega
  have huri : getServerUri options = snprintf bufSize (uriText options) := by
    rw [getServerUri, cStr_eq_self h.host, cStr_eq_self h.branch]
    rfl
  rw [huri, snprintf_eq_self_iff, hlength, bufSize]
  omega

theorem complete_iff_pieces {md5 : Bytes → Bytes} (h : NoNul options svc version ts) :
    Complete md5 options svc version ts ↔
      (∀ piece ∈ pieces options svc version ts, piece.length ≤ 63) ∧
      options.host.length + (decimal options.port.toNat).length + options.branch.length ≤ 56 := by
  constructor
  · intro hcomplete
    exact ⟨(signed_iff h).mp hcomplete.signed, (uri_iff h).mp hcomplete.uri⟩
  · intro ⟨hpieces, huri⟩
    refine ⟨(signed_iff h).mpr hpieces, ?_, (uri_iff h).mpr huri⟩
    intro buf hbuf
    have hdecode := decode_authBuf hbuf
    rw [cStr_eq_self h.svc, cStr_eq_self h.version] at hdecode
    exact ⟨_, hdecode⟩

theorem fits_iff_pieces :
    Fits options svc version ts ↔
      (∀ piece ∈ pieces options svc version ts, piece.length ≤ 63) ∧
      options.host.length + (decimal options.port.toNat).length + options.branch.length ≤ 56 := by
  have hkey : (ascii "key=").length = 4 := rfl
  have htype : (ascii "&device_type_id=").length = 16 := rfl
  have hid : (ascii "&device_id=").length = 11 := rfl
  have hsvc : (ascii "&service=").length = 9 := rfl
  have hversion : (ascii "&version=").length = 9 := rfl
  have hts : (ascii "&time=").length = 6 := rfl
  have hsecret : (ascii "&secret=").length = 8 := rfl
  simp only [pieces, List.forall_mem_cons, List.length_append, hkey, htype, hid, hsvc, hversion,
    hts, hsecret]
  constructor
  · intro hfits
    obtain ⟨h₁, h₂, h₃, h₄, h₅, h₆, h₇, h₈⟩ := hfits
    refine ⟨⟨?_, ?_, ?_, ?_, ?_, ?_, ?_, nofun⟩, h₈⟩ <;> omega
  · intro ⟨⟨h₁, h₂, h₃, h₄, h₅, h₆, h₇, _⟩, h₈⟩
    constructor <;> omega

/-- The handshake is complete if and only if nothing is cut. -/
theorem complete_iff_fits (md5 : Bytes → Bytes) (h : NoNul options svc version ts) :
    Complete md5 options svc version ts ↔ Fits options svc version ts :=
  (complete_iff_pieces h).trans fits_iff_pieces.symm

end

/-- Options whose values fit, with the strings of `TtsImpl`. -/
theorem complete_iff_fits_tts :
    Complete (fun _ => List.replicate 16 0)
      { key := ascii "k", deviceTypeId := ascii "t", deviceId := ascii "d", secret := ascii "s" }
      (ascii "tts") apiVersion (timestamp 1500000000 0) ↔
    Fits
      { key := ascii "k", deviceTypeId := ascii "t", deviceId := ascii "d", secret := ascii "s" }
      (ascii "tts") apiVersion (timestamp 1500000000 0) :=
  complete_iff_fits _ (by decide)

/-- The 60th byte of a key is not signed. -/
theorem long_key_not_complete :
    ∃ options : PrepareOptions,
      options = { key := List.replicate 60 107, deviceTypeId := ascii "t"
                  deviceId := ascii "d", secret := ascii "s" } ∧
      NoNul options (ascii "tts") apiVersion (ascii "1") ∧
      ∀ md5, ¬ Complete md5 options (ascii "tts") apiVersion (ascii "1") := by
  refine ⟨_, rfl, by decide, ?_⟩
  intro md5 hcomplete
  have hpieces := (signed_iff (by decide)).mp hcomplete.signed
  exact absurd (hpieces _ List.mem_cons_self) (by decide)

/-! ### What the client adds to the options -/

theorem zero_not_mem_decimal (n : Nat) : 0 ∉ decimal n := by
  intro h
  obtain ⟨c, hc, hzero⟩ := List.mem_map.mp h
  have hdigit := Nat.isDigit_of_mem_toDigits (by decide) (by decide) hc
  have hrange : 48 ≤ c.toNat ∧ c.toNat ≤ 57 := by
    simpa [Char.isDigit, UInt32.le_iff_toNat_le] using hdigit
  have htoNat := congrArg BitVec.toNat hzero
  simp only [BitVec.toNat_ofNat, BitVec.ofNat_eq_ofNat] at htoNat
  omega

theorem timestamp_eq (tvSec tvUsec : BitVec 64) :
    timestamp tvSec tvUsec = decimal (tvSec * 1000000 + tvUsec).toNat := by
  refine (snprintf_eq_self_iff bufSize _).mpr (Nat.le_trans (m := 20) ?_ (by decide))
  exact length_decimal_le (by decide) (Nat.lt_trans (BitVec.isLt _) (by decide))

section

variable {options : PrepareOptions} {svc : Bytes} {tvSec tvUsec : BitVec 64}

/-- The service, the version and the time are short. -/
theorem fits_client_iff (hsvc : svc = ascii "tts" ∨ svc = ascii "speech") :
    Fits options svc apiVersion (timestamp tvSec tvUsec) ↔
      options.key.length ≤ 59 ∧ options.deviceTypeId.length ≤ 47 ∧
      options.deviceId.length ≤ 52 ∧ options.secret.length ≤ 55 ∧
      options.host.length + (decimal options.port.toNat).length + options.branch.length ≤ 56 := by
  have hts : (timestamp tvSec tvUsec).length ≤ 20 := by
    rw [timestamp_eq]
    exact length_decimal_le (by decide) (Nat.lt_trans (BitVec.isLt _) (by decide))
  have hlength : svc.length ≤ 6 := by
    rcases hsvc with rfl | rfl <;> decide
  constructor
  · intro h
    exact ⟨h.key, h.deviceTypeId, h.deviceId, h.secret, h.uri⟩
  · intro ⟨hkey, htype, hid, hsecret, huri⟩
    exact ⟨hkey, htype, hid, by omega, by decide, by omega, hsecret, huri⟩

theorem noNul_client (hsvc : svc = ascii "tts" ∨ svc = ascii "speech")
    (h : ∀ str ∈ [options.host, options.branch, options.key, options.deviceTypeId,
      options.deviceId, options.secret], 0 ∉ str) :
    NoNul options svc apiVersion (timestamp tvSec tvUsec) := by
  simp only [List.forall_mem_cons] at h
  obtain ⟨hhost, hbranch, hkey, htype, hid, hsecret, _⟩ := h
  refine ⟨hhost, hbranch, hkey, htype, hid, hsecret, ?_, by decide, ?_⟩
  · rcases hsvc with rfl | rfl <;> decide
  · rw [timestamp_eq]
    exact zero_not_mem_decimal _

/-- What the options of a client have to keep to. -/
theorem complete_client_iff (md5 : Bytes → Bytes) (hsvc : svc = ascii "tts" ∨ svc = ascii "speech")
    (h : ∀ str ∈ [options.host, options.branch, options.key, options.deviceTypeId,
      options.deviceId, options.secret], 0 ∉ str) :
    Complete md5 options svc apiVersion (timestamp tvSec tvUsec) ↔
      options.key.length ≤ 59 ∧ options.deviceTypeId.length ≤ 47 ∧
      options.deviceId.length ≤ 52 ∧ options.secret.length ≤ 55 ∧
      options.host.length + (decimal options.port.toNat).length + options.branch.length ≤ 56 :=
  ((complete_iff_pieces (noNul_client hsvc h)).trans fits_iff_pieces.symm).trans
    (fits_client_iff hsvc)

end

/-- The model of the connection sends the request in the cases in which there is one. -/
theorem auth_eq {md5 : Bytes → Bytes} {s : SpeechConnection} {svc version ts buf : Bytes}
    (h : authBuf md5 s.options svc version ts = some buf) : s.auth = s.wsSend .auth := by
  unfold authBuf at h
  split at h
  · cases h
  · next hset => rw [auth, if_neg hset]

end Handshake

end OpenVoice

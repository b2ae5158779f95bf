import OpenVoice.Lib.Run
import OpenVoice.StreamQueue.Removal
import OpenVoice.StreamQueue.Delivery
import OpenVoice.StreamQueue.DataCount
import OpenVoice.OpCtl.Poll
import OpenVoice.OpCtl.Remaining
import OpenVoice.Tts.Cancel
import OpenVoice.Speech.Terminal
import OpenVoice.Speech.CancelText
import OpenVoice.Speech.VoiceOrder
import OpenVoice.Speech.Blocks
import OpenVoice.Speech.Closing
import OpenVoice.Speech.TextGap
import OpenVoice.Isolation
import OpenVoice.Shutdown
import OpenVoice.Connection.Closed
import OpenVoice.Connection.Live
import OpenVoice.Connection.Sending
import OpenVoice.Connection.Reconn
import OpenVoice.Connection.Handshake
import OpenVoice.Connection.Trace
import OpenVoice.Deadline
import OpenVoice.Service.Broken
import OpenVoice.Service.Idle
import OpenVoice.Wakeup
import OpenVoice.Codec.Chunking
import OpenVoice.Codec.LengthByte
import OpenVoice.Speech.Fragments
import OpenVoice.Speech.OpusFidelity
import OpenVoice.Speech.ErrorCode
import OpenVoice.Tts.Payload
import OpenVoice.Foreign
import OpenVoice.LostWakeup
import OpenVoice.Nanopb.RoundTrip
import OpenVoice.Nanopb.Responses
import OpenVoice.Connection.Timers
import OpenVoice.Connection.Mailbox
import OpenVoice.Nanopb.Received
import OpenVoice.Android.Speech
import OpenVoice.Service.TtsResults
import OpenVoice.Service.SpeechResults
import OpenVoice.Service.TtsUplink
import OpenVoice.Service.SpeechUplink

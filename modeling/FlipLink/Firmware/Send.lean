/-
# `FlipLink.Firmware.Send` — the frames the firmware sends

A `Sent` is one call of one of the senders of `main.rs`, by its type and the
body it carries: `send_msg` with a CAPS or RESP, `send_error`,
`send_stream_start`, `send_stream_data`, `send_stream_stop`, and the PONG of the
main loop.
-/
import FlipLink.Proto.Messages

namespace FlipLink

/-- A frame handed to the sender. -/
inductive Sent where
  | caps (seq : UInt16)
  | resp (seq : UInt16) (result : Value)
  | error (seq : UInt16) (code : UInt32) (message : String)
  | streamStart (seq : UInt16) (format : String)
  | streamData (seq : UInt16) (raw : List UInt8)
  | streamStop (seq : UInt16) (dropped : UInt32)
  | pong (seq : UInt16) (payload : List UInt8)

end FlipLink

/-
# `FlipLink.Link.Loopback` — the devices in memory

Two transports in memory stand in for the device in the host's tests.  What is written to
one goes through a `FrameReader`, and the answers to its frames are queued for the next
reads: one loop, with two tables of answers.

However the bytes are cut into writes, and wherever the reads come between them, what was
read and what is queued are the answers to the frames written, in order (`run_answers`).
`PongLoopback` is said to mimic the firmware's echo, and it does for every PING that fits
`enc` (`pongLoopback_mimics`); a longer one fails the write here, and there it is passed
over.  `ControlLoopback` does so for `sys.echo` (`controlLoopback_mimics`); it takes every
opcode `echo` for that, whatever the instrument, and answers the others with `null`.
-/
import FlipLink.Link.Replay
import FlipLink.Proto.Normal

namespace FlipLink

open Lib Lib.Cbor MainLoop

/-- `PongLoopback` and `ControlLoopback`. -/
structure Loopback where
  out : List UInt8
  reader : FrameReader

namespace Loopback

def new : Loopback := { out := [], reader := .new }

section Serve

variable (serve : OwnedFrame → Except String (List UInt8))

/-- At most `k` turns of the loop of `write_all`; `serve` is what is queued for a frame. -/
def serveN : Nat → Loopback → Except String Unit × Loopback
  | 0, l => (.ok (), l)
  | k + 1, l =>
      match l.reader.nextFrame with
      | (some f, reader) =>
          match serve f with
          | .ok bytes => serveN k { out := l.out ++ bytes, reader }
          | .error e => (.error e, { l with reader })
      | (none, reader) => (.ok (), { l with reader })

/-- `write_all`; every turn but the last uses a byte. -/
def writeAll (l : Loopback) (buf : List UInt8) : Except String Unit × Loopback :=
  serveN serve ((l.reader.feed buf).buf.length + 1) { l with reader := l.reader.feed buf }

/-- `read`, into a buffer of `room` bytes. -/
def read (l : Loopback) (room : Nat) : List UInt8 × Loopback :=
  (l.out.take room, { l with out := l.out.drop room })

inductive Label where
  | write (buf : List UInt8)
  | read (room : Nat)
  deriving DecidableEq, Repr

inductive Event where
  | wrote (buf : List UInt8) (result : Except String Unit)
  | read (bytes : List UInt8)

def step (l : Loopback) : Label → Option (Loopback × List Event)
  | .write buf => some ((writeAll serve l buf).2, [.wrote buf (writeAll serve l buf).1])
  | .read room => some ((l.read room).2, [.read (l.read room).1])

def machine : Machine Loopback Label Event where
  step := step serve

end Serve

/-! ## The two tables -/

/-- `PongLoopback`. -/
def pong (f : OwnedFrame) : Except String (List UInt8) :=
  match f.typ with
  | .ping =>
      match encode .pong 0 f.seq f.payload (List.replicate 1100 0) with
      | (some n, enc) => .ok (enc.take n)
      | (none, _) => .error "pong frame too large"
  | _ => .ok []

/-- `queue`. -/
def queue (typ : MsgType) (seq : UInt16) (body : List UInt8) : Except String (List UInt8) :=
  match frameBytes typ 0 seq body with
  | some bytes => .ok bytes
  | none => .error "loopback frame too large"

/-- `ControlLoopback`. -/
def control {ε : Type} (cb : Minicbor ε) (fromPayload : List UInt8 → Except String Req)
    (f : OwnedFrame) : Except String (List UInt8) :=
  match f.typ with
  | .hello => queue .caps f.seq (capsBody protocolVersion [("sys", ["version", "echo"])])
  | .req =>
      match fromPayload f.payload with
      | .ok req =>
          queue .resp f.seq
            (respBody (Value.encode cb) (if req.opcode = "echo" then req.params else .null))
      | .error e => .error ("decode loopback REQ: " ++ e)
  | _ => .ok []

/-! ## Every run -/

/-- The bytes written. -/
def written (es : List Event) : List UInt8 :=
  es.flatMap fun
    | .wrote buf _ => buf
    | .read _ => []

/-- The bytes read. -/
def received (es : List Event) : List UInt8 :=
  es.flatMap fun
    | .wrote .. => []
    | .read bytes => bytes

/-- What the steps of a run write. -/
def writes (ls : List Label) : List UInt8 :=
  ls.flatMap fun
    | .write buf => buf
    | .read _ => []

theorem written_append (es es' : List Event) : written (es ++ es') = written es ++ written es' :=
  List.flatMap_append

theorem received_append (es es' : List Event) :
    received (es ++ es') = received es ++ received es' := List.flatMap_append

section Run

variable {serve : OwnedFrame → Except String (List UInt8)}

/-- What a frame adds to the queue. -/
def answered (serve : OwnedFrame → Except String (List UInt8)) (f : OwnedFrame) : List UInt8 :=
  match serve f with
  | .ok bytes => bytes
  | .error _ => []

theorem answered_ok {f : OwnedFrame} {bytes : List UInt8} (h : serve f = .ok bytes) :
    answered serve f = bytes := by
  rw [answered, h]

theorem answered_error {f : OwnedFrame} {e : String} (h : serve f = .error e) :
    answered serve f = [] := by
  rw [answered, h]

/-- The loop takes frames and queues their answers; it takes all there are, or fails on one. -/
theorem serveN_spec {symbols : List UInt8} : ∀ (k : Nat) {l : Loopback}
    {taken : List OwnedFrame}, codec.At symbols taken l.reader.buf → l.reader.buf.length < k →
    ∃ served, codec.At symbols (taken ++ served) (serveN serve k l).2.reader.buf ∧
      (serveN serve k l).2.out = l.out ++ served.flatMap (answered serve) ∧
      ((codec.drain symbols).1 = taken ++ served ∨ ∃ f ∈ served, ∃ e, serve f = .error e)
  | 0, _, _, _, hk => absurd hk (Nat.not_lt_zero _)
  | k + 1, l, taken, hat, hk => by
      cases hn : l.reader.nextFrame with
      | mk o reader =>
          have hnext := FrameReader.next_of_nextFrame hn
          cases o with
          | none =>
              have heq : serveN serve (k + 1) l = (.ok (), { l with reader }) := by
                rw [serveN, hn]
              rw [heq]
              refine ⟨[], ?_, ?_, .inl ?_⟩
              · rw [List.append_nil]
                exact hat.next_none hnext
              · exact (List.append_nil _).symm
              · rw [List.append_nil]
                exact hat.waiting hnext
          | some f =>
              have hat' := hat.next_some hnext
              cases hserve : serve f with
              | error e =>
                  have heq : serveN serve (k + 1) l = (.error e, { l with reader }) := by
                    rw [serveN, hn]
                    dsimp only
                    rw [hserve]
                  rw [heq]
                  refine ⟨[f], hat', ?_, .inr ⟨f, List.mem_singleton_self f, e, hserve⟩⟩
                  rw [List.flatMap_singleton, answered_error hserve, List.append_nil]
              | ok bytes =>
                  have heq : serveN serve (k + 1) l
                      = serveN serve k { out := l.out ++ bytes, reader } := by
                    rw [serveN, hn]
                    dsimp only
                    rw [hserve]
                  rw [heq]
                  have hshort : reader.buf.length < k := by
                    have := codec.next_length hnext
                    omega
                  obtain ⟨served, hat'', hout, hall⟩ :=
                    serveN_spec k (l := { out := l.out ++ bytes, reader }) hat' hshort
                  refine ⟨f :: served, ?_, ?_, ?_⟩
                  · rw [← List.singleton_append, ← List.append_assoc]
                    exact hat''
                  · refine hout.trans ?_
                    rw [List.flatMap_cons, answered_ok hserve, List.append_assoc]
                  · rw [← List.singleton_append, ← List.append_assoc]
                    refine hall.imp_right ?_
                    rintro ⟨g, hg, e, he⟩
                    exact ⟨g, List.mem_append_right _ hg, e, he⟩

/-- What was read and what is queued answers the frames taken; and these are all that were
written, unless one of them fails. -/
def Serves (serve : OwnedFrame → Except String (List UInt8)) (l : Loopback) (es : List Event) :
    Prop :=
  ∃ taken, codec.At (written es) taken l.reader.buf ∧
    received es ++ l.out = taken.flatMap (answered serve) ∧
    ((∀ f ∈ (codec.drain (written es)).1, ∃ bytes, serve f = .ok bytes) →
      (codec.drain (written es)).1 = taken)

theorem Serves.step {l l' : Loopback} {es es' : List Event} (h : Serves serve l es) :
    ∀ {i : Label}, step serve l i = some (l', es') → Serves serve l' (es ++ es')
  | .read room, hs => by
      obtain ⟨taken, hat, hout, hall⟩ := h
      cases hs
      have hwritten : written (es ++ [.read (l.read room).1]) = written es := by
        rw [written_append]
        exact List.append_nil _
      refine ⟨taken, hwritten.symm ▸ hat, ?_, hwritten.symm ▸ hall⟩
      rw [received_append, List.append_assoc, ← hout]
      show received es ++ ((l.out.take room ++ []) ++ l.out.drop room) = _
      rw [List.append_nil, List.take_append_drop]
  | .write buf, hs => by
      obtain ⟨taken, hat, hout, -⟩ := h
      cases hs
      have hwritten : written (es ++ [.wrote buf (writeAll serve l buf).1])
          = written es ++ buf := by
        rw [written_append]
        exact congrArg (written es ++ ·) (List.append_nil buf)
      have hreceived : received (es ++ [.wrote buf (writeAll serve l buf).1]) = received es := by
        rw [received_append]
        exact List.append_nil _
      obtain ⟨served, hat', hout', hall⟩ := @serveN_spec serve _ _
        { l with reader := l.reader.feed buf } _ (hat.feed buf) (Nat.lt_succ_self _)
      refine ⟨taken ++ served, hwritten.symm ▸ hat', ?_, ?_⟩
      · rw [hreceived, List.flatMap_append, ← hout, List.append_assoc]
        exact congrArg (received es ++ ·) hout'
      · rw [hwritten]
        intro hok
        rcases hall with hdrain | ⟨f, hf, e, he⟩
        · exact hdrain
        · have hmem : f ∈ (codec.drain (written es ++ buf)).1 := by
            rw [hat'.frames]
            exact List.mem_append_left _ (List.mem_append_right _ hf)
          obtain ⟨bytes, hbytes⟩ := hok f hmem
          cases he.symm.trans hbytes

theorem run_written {ls : List Label} {l l' : Loopback} {es : List Event}
    (hr : (machine serve).run l ls = some (l', es)) : written es = writes ls := by
  induction ls generalizing l es with
  | nil =>
      cases hr
      rfl
  | cons i ls ih =>
      obtain ⟨l₁, es₁, es₂, hs, hrest, rfl⟩ := Machine.run_cons hr
      have hstep : written es₁ = writes [i] := by
        cases i <;> cases hs <;> rfl
      rw [written_append, hstep, ih hrest, ← List.singleton_append]
      exact List.flatMap_append.symm

/-- In every run the frames written are answered in order, if none of them fails. -/
theorem run_answers {ls : List Label} {l : Loopback} {es : List Event}
    (hr : (machine serve).run new ls = some (l, es))
    (hok : ∀ f ∈ (codec.drain (writes ls)).1, ∃ bytes, serve f = .ok bytes) :
    received es ++ l.out = (codec.drain (writes ls)).1.flatMap (answered serve) := by
  rw [← run_written hr] at hok ⊢
  have hnew : Serves serve new [] := ⟨[], codec.at_nil, rfl, fun _ => rfl⟩
  obtain ⟨taken, -, hout, hall⟩ :=
    Machine.run_events (P := Serves serve) (fun h hs => h.step hs) hnew hr
  rw [hall hok, hout]

end Run

/-! ## The device -/

section Device

variable {ε : Type} {cb : Minicbor ε} {fromPayload : List UInt8 → Option Req}
  {serve : OwnedFrame → Except String (List UInt8)}

/-- The device answers a frame with what `serve` queues, and is left as it was. -/
def Agrees (cb : Minicbor ε) (fromPayload : List UInt8 → Option Req)
    (serve : OwnedFrame → Except String (List UInt8)) (f : OwnedFrame) : Prop :=
  ∃ bytes, serve f = .ok bytes ∧
    ∀ (hal : Device.Hal) (d : Device) (rest : List Dispatch),
      d.todo = MainLoop.dispatch f :: rest → ∃ es,
        Device.step fromPayload d (.handle hal) = some ({ d with todo := rest }, es) ∧
          (Replies.handed cb es).flatten = bytes

theorem handed_append (es es' : List Device.Event) :
    Replies.handed cb (es ++ es') = Replies.handed cb es ++ Replies.handed cb es' := by
  rw [Replies.handed, List.flatMap_append, List.filterMap_append]
  rfl

theorem device_answers (hal : Device.Hal) {fs : List OwnedFrame}
    (h : ∀ f ∈ fs, Agrees cb fromPayload serve f) {d : Device}
    (htodo : d.todo = fs.map MainLoop.dispatch) :
    ∃ es, (Device.machine fromPayload).run d (List.replicate fs.length (.handle hal))
        = some ({ d with todo := [] }, es) ∧
      (Replies.handed cb es).flatten = fs.flatMap (answered serve) := by
  induction fs generalizing d with
  | nil =>
      obtain ⟨loop, todo, ir, subghz, running, ended⟩ := d
      obtain rfl : todo = [] := htodo
      exact ⟨[], rfl, rfl⟩
  | cons f fs ih =>
      obtain ⟨hf, hfs⟩ := List.forall_mem_cons.mp h
      obtain ⟨bytes, hserve, hstep⟩ := hf
      obtain ⟨es, hs, hes⟩ := hstep hal d (fs.map MainLoop.dispatch) htodo
      obtain ⟨es', hr, hes'⟩ := @ih hfs { d with todo := fs.map MainLoop.dispatch } rfl
      refine ⟨es ++ es', Machine.run_step hs hr, ?_⟩
      rw [handed_append, List.flatten_append, hes, hes', List.flatMap_cons, answered_ok hserve]

/-- Pieces of a chunk fit behind any unfinished frame that is shorter by one. -/
theorem pending_le {m : Nat} : ∀ {fs : List Frame} {n : Nat}, (∀ f ∈ fs, size f ≤ m) →
    n ≤ (wires fs).length → pending fs n ≤ m
  | [], n, _, hn => Nat.le_trans hn (Nat.zero_le m)
  | f :: fs, n, h, hn => by
      obtain ⟨hf, hfs⟩ := List.forall_mem_cons.mp h
      rw [wires, List.flatMap_cons, List.length_append, length_frame_wire] at hn
      rw [pending]
      split_ifs with hle
      · exact pending_le hfs (show n - size f ≤ (fs.flatMap Frame.wire).length by omega)
      · omega

theorem fits_of_chunks {fs : List Frame} (h : ∀ f ∈ fs, size f + chunkSize ≤ maxFrame) :
    ∀ {ps : List (List UInt8)} {n : Nat}, (∀ p ∈ ps, p.length ≤ chunkSize) →
      n + ps.flatten.length ≤ (wires fs).length → Fits fs n ps
  | [], _, _, _ => trivial
  | p :: ps, n, hps, hn => by
      obtain ⟨hp, hps⟩ := List.forall_mem_cons.mp hps
      rw [List.flatten_cons, List.length_append] at hn
      have hpending : pending fs n ≤ maxFrame - chunkSize :=
        pending_le (fun f hf => Nat.le_sub_of_add_le (h f hf)) (by omega)
      refine ⟨?_, fits_of_chunks h hps (by omega)⟩
      simp only [chunkSize, maxFrame] at hp hpending ⊢
      omega

/-- A loopback that agrees with the device on some frames answers them like the device. -/
theorem mimics {fs : List OwnedFrame} (hfs : ∀ f ∈ fs, Agrees cb fromPayload serve f)
    (hsize : ∀ f ∈ fs, size f + chunkSize ≤ maxFrame) {ls : List Label} {l : Loopback}
    {es : List Event} (hr : (machine serve).run new ls = some (l, es)) (hw : writes ls = wires fs)
    {ts : List Turn} (hts : ∀ t ∈ ts, Piece t) (hgot : (ts.map Turn.got).flatten = wires fs) :
    (run .new ts).1 = fs.map MainLoop.dispatch ∧
      ∀ (hal : Device.Hal) (d : Device), d.todo = fs.map MainLoop.dispatch → ∃ es',
        (Device.machine fromPayload).run d (List.replicate fs.length (.handle hal))
            = some ({ d with todo := [] }, es') ∧
          received es ++ l.out = (Replies.handed cb es').flatten := by
  have hmax : ∀ f ∈ fs, size f ≤ maxFrame := fun f hf =>
    Nat.le_trans (Nat.le_add_right _ _) (hsize f hf)
  have hfits : Fits fs 0 (ts.map Turn.got) := by
    refine fits_of_chunks hsize (fun p hp => ?_) (by rw [hgot, Nat.zero_add])
    obtain ⟨t, ht, rfl⟩ := List.mem_map.mp hp
    exact (hts t ht).le
  refine ⟨((dispatches_iff hmax hts hgot).mpr hfits).1, fun hal d htodo => ?_⟩
  obtain ⟨es', hrun, hes'⟩ := device_answers hal hfs htodo
  refine ⟨es', hrun, ?_⟩
  have hframes : (codec.drain (writes ls)).1 = fs := hw ▸ drain_wires hmax
  rw [hes', run_answers hr (by rw [hframes]; exact fun f hf => (hfs f hf).imp fun _ h => h.1),
    hframes]

/-! ## PINGs -/

theorem pong_agrees {f : OwnedFrame} (htyp : f.typ = .ping)
    (hsize : size f ≤ Device.encCap) : Agrees cb fromPayload pong f := by
  obtain ⟨typ, flags, seq, payload⟩ := f
  obtain rfl : typ = .ping := htyp
  have hlen : payload.length + 13 ≤ Device.encCap := hsize
  have hlen' : payload.length + 13 ≤ 1100 := hlen
  have hfits : (Sent.pong seq payload).Fits cb := show payload.length ≤ 0xFFFF by omega
  have he := encode_eq .pong 0 seq payload (List.replicate 1100 0)
    (not_gt_maxPayload (by omega))
    (by rw [List.length_replicate]; simp only [headerSize, crcSize]; omega)
  refine ⟨wire .pong 0 seq payload, ?_, fun hal d rest htodo => ?_⟩
  · rw [pong]
    dsimp only
    rw [he]
    exact congrArg Except.ok (List.take_left' (length_wire .pong 0 seq payload))
  · have hecho : d.todo = .echo seq payload :: rest := htodo
    refine ⟨[.handled .ping seq [.pong seq payload]], ?_, ?_⟩
    · rw [Device.step, hecho]
      dsimp only
      rw [if_pos hlen]
    · rw [Replies.handed_singleton hfits .ping seq, List.flatten_singleton]
      rfl

/-- **`PongLoopback` mimics the echo of the firmware.**  PINGs that fit `enc`, written in any
pieces with reads in between, and received by the main loop in any other pieces: the loop
echoes them all, and the bytes that were read or are still queued here are those that the
device sends. -/
theorem pongLoopback_mimics (cb : Minicbor ε) {fs : List OwnedFrame}
    (hfs : ∀ f ∈ fs, f.typ = .ping ∧ size f ≤ Device.encCap) {ls : List Label} {l : Loopback}
    {es : List Event} (hr : (machine pong).run new ls = some (l, es)) (hw : writes ls = wires fs)
    {ts : List Turn} (hts : ∀ t ∈ ts, Piece t) (hgot : (ts.map Turn.got).flatten = wires fs) :
    (run .new ts).1 = fs.map MainLoop.dispatch ∧
      ∀ (hal : Device.Hal) (d : Device), d.todo = fs.map MainLoop.dispatch → ∃ es',
        (Device.machine fromPayload).run d (List.replicate fs.length (.handle hal))
            = some ({ d with todo := [] }, es') ∧
          received es ++ l.out = (Replies.handed cb es').flatten := by
  refine mimics (fun f hf => pong_agrees (hfs f hf).1 (hfs f hf).2) (fun f hf => ?_) hr hw hts hgot
  have := (hfs f hf).2
  simp only [Device.encCap, chunkSize, maxFrame] at this ⊢
  omega

/-- Two PINGs, the first of them in two writes. -/
def pings : List OwnedFrame :=
  [{ typ := .ping, flags := 0, seq := 1, payload := [1, 2] },
    { typ := .ping, flags := 0, seq := 2, payload := [] }]

def pingsCut : List Label :=
  [.write ((wires pings).take 10), .read 4, .write ((wires pings).drop 10), .read 20]

theorem pongLoopback_mimics_cut : ∃ es es',
    (machine pong).run new pingsCut = some ((machine pong).final new pingsCut, es) ∧
      (Device.machine fun _ => none).run { Device.initial with todo := pings.map MainLoop.dispatch }
          (List.replicate 2 (.handle Replies.sysHal)) = some (.initial, es') ∧
      received es ++ ((machine pong).final new pingsCut).out
        = (Replies.handed rfc8949 es').flatten := by
  obtain ⟨es, hr⟩ := Machine.run_of_isSome
    (show ((machine pong).run new pingsCut).isSome = true by decide +kernel)
  obtain ⟨-, hdevice⟩ := pongLoopback_mimics rfc8949
    (show ∀ f ∈ pings, f.typ = .ping ∧ size f ≤ Device.encCap by decide) hr
    (by decide +kernel) singles_piece (singles_got _)
  obtain ⟨es', hrun, heq⟩ := hdevice Replies.sysHal
    { Device.initial with todo := pings.map MainLoop.dispatch } rfl
  exact ⟨es, es', hr, hrun, heq⟩

/-! ## `sys.echo` -/

theorem control_agrees (hcb : cb.Lawful) {hostPayload : List UInt8 → Except String Req}
    (hhost : ReadsReq cb fun payload => (hostPayload payload).toOption)
    (hreq : ReadsReq cb fromPayload) {f : OwnedFrame} {v : Value} (htyp : f.typ = .req)
    (hbody : f.payload = reqBody (Value.encode cb) ⟨"sys", "echo", v⟩)
    (hsize : size f ≤ maxFrame) : Agrees cb fromPayload (control cb hostPayload) f := by
  obtain ⟨typ, flags, seq, payload⟩ := f
  obtain rfl : typ = .req := htyp
  obtain rfl : payload = reqBody (Value.encode cb) ⟨"sys", "echo", v⟩ := hbody
  have hlen : (Value.encode cb v).length ≤ maxFrame := by
    rw [size, reqBody, List.length_append] at hsize
    dsimp only at hsize
    omega
  simp only [maxFrame] at hlen
  have hv : v.Fits := Value.fits_of_length hcb (by omega)
  have hresp : (Sent.resp seq v.norm).Fits cb := by
    refine Replies.fits_resp ?_ seq
    rw [Value.encode_norm hcb]
    omega
  have hsys : (utf8 "sys").length < 2 ^ 64 := by decide
  have hecho : (utf8 "echo").length < 2 ^ 64 := by decide
  have hframe : frameBytes .resp 0 seq (respBody (Value.encode cb) v.norm)
      = some ((Sent.resp seq v.norm).frame cb).wire := frameBytes_eq .resp 0 seq hresp
  have hread : hostPayload (reqBody (Value.encode cb) ⟨"sys", "echo", v⟩)
      = .ok ⟨"sys", "echo", v.norm⟩ :=
    Replies.ok_of_toOption (hhost ⟨"sys", "echo", v⟩ hsys hecho hv)
  refine ⟨((Sent.resp seq v.norm).frame cb).wire, ?_, fun hal d rest htodo => ?_⟩
  · rw [control]
    dsimp only
    rw [hread]
    dsimp only
    rw [if_pos rfl, queue, hframe]
  · have hhandled := handleFrame_request hreq hsys hecho hv rfl hal seq { d with todo := rest }
    have htodo : d.todo = .handleFrame .req seq
        (reqBody (Value.encode cb) ⟨"sys", "echo", v⟩) :: rest := htodo
    refine ⟨[.handled .req seq [.resp seq v.norm]], ?_, ?_⟩
    · rw [Device.step, htodo]
      dsimp only
      rw [hhandled]
      rfl
    · rw [Replies.handed_singleton hresp .req seq, List.flatten_singleton]

/-- **`ControlLoopback` answers `sys.echo` like the firmware.**  The same of REQs for `sys.echo`
with any parameters, each at least a chunk shorter than what the main loop holds, if both ends
decode what the host's encoder wrote. -/
theorem controlLoopback_mimics (hcb : cb.Lawful)
    {hostPayload : List UInt8 → Except String Req}
    (hhost : ReadsReq cb fun payload => (hostPayload payload).toOption)
    (hreq : ReadsReq cb fromPayload) {fs : List OwnedFrame}
    (hfs : ∀ f ∈ fs, size f + chunkSize ≤ maxFrame ∧ f.typ = .req ∧
      ∃ v, f.payload = reqBody (Value.encode cb) ⟨"sys", "echo", v⟩)
    {ls : List Label} {l : Loopback} {es : List Event}
    (hr : (machine (control cb hostPayload)).run new ls = some (l, es))
    (hw : writes ls = wires fs) {ts : List Turn} (hts : ∀ t ∈ ts, Piece t)
    (hgot : (ts.map Turn.got).flatten = wires fs) :
    (run .new ts).1 = fs.map MainLoop.dispatch ∧
      ∀ (hal : Device.Hal) (d : Device), d.todo = fs.map MainLoop.dispatch → ∃ es',
        (Device.machine fromPayload).run d (List.replicate fs.length (.handle hal))
            = some ({ d with todo := [] }, es') ∧
          received es ++ l.out = (Replies.handed cb es').flatten := by
  refine mimics (fun f hf => ?_) (fun f hf => (hfs f hf).1) hr hw hts hgot
  obtain ⟨hsize, htyp, v, hbody⟩ := hfs f hf
  exact control_agrees hcb hhost hreq htyp hbody (Nat.le_trans (Nat.le_add_right _ _) hsize)

end Device

/-- A decoder of REQ bodies on the host. -/
def hostReq (payload : List UInt8) : Except String Req :=
  (readReq rfc8949 payload).elim (.error "undecodable") .ok

theorem reads_hostReq : ReadsReq rfc8949 fun payload => (hostReq payload).toOption := by
  intro req hinstrument hopcode hparams
  dsimp only
  rw [hostReq, readsReq_readReq rfc8949_lawful req hinstrument hopcode hparams]
  rfl

theorem controlLoopback_mimics_five : ∃ es es',
    (machine (control rfc8949 hostReq)).run new [.write Replies.echoFrame.wire, .read 5]
        = some ((machine (control rfc8949 hostReq)).final new
            [.write Replies.echoFrame.wire, .read 5], es) ∧
      (Device.machine (readReq rfc8949)).run
          { Device.initial with todo := [MainLoop.dispatch Replies.echoFrame] }
          [.handle Replies.sysHal] = some (.initial, es') ∧
      received es ++ ((machine (control rfc8949 hostReq)).final new
        [.write Replies.echoFrame.wire, .read 5]).out = (Replies.handed rfc8949 es').flatten := by
  obtain ⟨es, hr⟩ := Machine.run_of_isSome
    (show ((machine (control rfc8949 hostReq)).run new
      [.write Replies.echoFrame.wire, .read 5]).isSome = true by decide +kernel)
  have hfs : ∀ f ∈ [Replies.echoFrame], size f + chunkSize ≤ maxFrame ∧ f.typ = .req ∧
      ∃ v, f.payload = reqBody (Value.encode rfc8949) ⟨"sys", "echo", v⟩ :=
    List.forall_mem_singleton.mpr ⟨by decide, rfl, .u64 5, rfl⟩
  obtain ⟨-, hdevice⟩ := controlLoopback_mimics rfc8949_lawful reads_hostReq
    (readsReq_readReq rfc8949_lawful) hfs hr (by decide +kernel) singles_piece (singles_got _)
  obtain ⟨es', hrun, heq⟩ := hdevice Replies.sysHal
    { Device.initial with todo := [MainLoop.dispatch Replies.echoFrame] } rfl
  exact ⟨es, es', hr, hrun, heq⟩

end Loopback

end FlipLink

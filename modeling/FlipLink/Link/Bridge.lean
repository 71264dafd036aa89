/-
# `FlipLink.Link.Bridge` — the daemon and the device on one link

The machine of the daemon and the machine of the device, side by side, with the
bytes that are on their way between them.

    up      what the device has sent; the owner's reads take it
    down    what the owner has written; the device's receives take it

The link keeps the order of the bytes and makes none up.  It may lose any of them
(`lose`): when the port is closed or opened, when a write fails half way, when
the device's buffer is full.

A stream belongs to the client that opened it: a STREAM_STOP is to end no capture
but the one that the REQ with its seq has started (`Event.EndsOwn`).  The daemon
numbers requests and stops for that, but the device does not look at the number
of a stop.  So it holds along a run exactly if, whenever a STREAM_STOP is
handled, every active capture has its seq (`stream_belongs_iff`); `foreign_stop`
is a run where one client's stop ends the capture of another.
-/
import FlipLink.Daemon.System
import FlipLink.Firmware.Device
import FlipLink.Proto.Rfc8949

namespace FlipLink.Bridge

open Lib

/-! ## The machine -/

structure State where
  daemon : Daemon.State
  device : Device
  up : List UInt8
  down : List UInt8

def State.initial : State where
  daemon := .initial
  device := .initial
  up := []
  down := []

inductive Label where
  | daemon (l : Daemon.Label)
  | device (l : Device.Label)
  /-- These are left of the bytes on their way. -/
  | lose (up down : List UInt8)

inductive Event where
  | daemon (e : Daemon.Event)
  | device (e : Device.Event)

/-- Take the bytes off the front of what is on its way, up to `n` at a time. -/
def take (n : Nat) (bytes link : List UInt8) : Option (List UInt8) :=
  if bytes.length ≤ n ∧ bytes <+: link then some (link.drop bytes.length) else none

/-- The size of `scratch`, in `cache_caps` and in `pump`. -/
def scratchSize : Daemon.Owner → Nat
  | .handshakeRead .. => 512
  | _ => 1024

/-- The bytes that a step of the daemon reads from the link. -/
def reads : Daemon.Label → List UInt8
  | .owner (.read (some bytes)) => bytes
  | _ => []

/-- The bytes that a step of the daemon hands to the link; a write that fails may
have written some of them, which is for `lose` to say. -/
def writes (d : Daemon.State) : Daemon.Label → List UInt8
  | .owner (.wrote _) =>
      match d.owner.need with
      | .hello => (frameBytes .hello 0 0 (helloBody 0)).getD []
      | .write _ chunk => chunk
      | _ => []
  | _ => []

/-- The bytes that a step of the device receives. -/
def receives : Device.Label → List UInt8
  | .receive got _ => got
  | _ => []

/-- What the device sends in these events. -/
def sends : List Device.Event → List Sent
  | [] => []
  | .handled _ _ sent :: es | .drained sent :: es | .exited sent :: es => sent ++ sends es

section Machine

variable {ε : Type} (cb : Minicbor ε) (fromPayload : List UInt8 → Option Req)

def step (s : State) : Label → Option (State × List Event)
  | .daemon l =>
      match take (scratchSize s.daemon.owner) (reads l) s.up,
        Daemon.step agentErrorBody s.daemon l with
      | some up, some (daemon, es) =>
          some ({ s with daemon, up, down := s.down ++ writes s.daemon l }, es.map .daemon)
      | _, _ => none
  | .device l =>
      match take MainLoop.chunkSize (receives l) s.down, Device.step fromPayload s.device l with
      | some down, some (device, es) =>
          some ({ s with device, down, up := s.up ++ (sends es).flatMap (Sent.bytes cb) },
            es.map .device)
      | _, _ => none
  | .lose up down =>
      if up.Sublist s.up ∧ down.Sublist s.down then some ({ s with up, down }, []) else none

def machine : Machine State Label Event where
  step := step cb fromPayload

end Machine

/-! ## Whose capture a STREAM_STOP ends -/

def deviceEvents (es : List Event) : List Device.Event :=
  es.filterMap fun
    | .device e => some e
    | .daemon _ => none

/-- A handled STREAM_STOP ends no capture but the one that the REQ with its seq
has started. -/
def Event.EndsOwn (before : List Event) : Event → Prop
  | .device e => e.EndsOwn (deviceEvents before)
  | .daemon _ => True

/-- When a STREAM_STOP is handled, every active capture has its seq. -/
def StopsOwn (s : State) : Label → Prop
  | .device l => s.device.StopsOwn l
  | .daemon _ | .lose .. => True

instance (s : State) : ∀ l : Label, Decidable (StopsOwn s l)
  | .device l => inferInstanceAs (Decidable (s.device.StopsOwn l))
  | .daemon _ | .lose .. => .isTrue trivial

theorem deviceEvents_append_device (es : List Event) (es' : List Device.Event) :
    deviceEvents (es ++ es'.map .device) = deviceEvents es ++ es' := by
  rw [deviceEvents, List.filterMap_append, List.filterMap_map]
  exact congrArg (deviceEvents es ++ ·) List.filterMap_some

theorem deviceEvents_append_daemon (es : List Event) (es' : List Daemon.Event) :
    deviceEvents (es ++ es'.map .daemon) = deviceEvents es := by
  rw [deviceEvents, List.filterMap_append, List.filterMap_map]
  exact (congrArg (deviceEvents es ++ ·) (List.filterMap_eq_nil_iff.mpr fun _ _ => rfl)).trans
    (List.append_nil _)

/-- What a step of the two is: a step of the daemon, of the device, or of neither. -/
inductive Moved (fromPayload : List UInt8 → Option Req) (s : State) :
    Label → State → List Event → Prop
  | daemon {l : Daemon.Label} {s' : State} {es : List Daemon.Event} :
      Daemon.step agentErrorBody s.daemon l = some (s'.daemon, es) → s'.device = s.device →
      Moved fromPayload s (.daemon l) s' (es.map .daemon)
  | device {l : Device.Label} {s' : State} {es : List Device.Event} :
      Device.step fromPayload s.device l = some (s'.device, es) → s'.daemon = s.daemon →
      Moved fromPayload s (.device l) s' (es.map .device)
  | lose {up down : List UInt8} : Moved fromPayload s (.lose up down) { s with up, down } []

section

variable {ε : Type} {cb : Minicbor ε} {fromPayload : List UInt8 → Option Req} {s s' : State}
  {es es' : List Event}

theorem step_moved : ∀ {l : Label}, (machine cb fromPayload).step s l = some (s', es) →
    Moved fromPayload s l s' es
  | .daemon l, h => by
      simp only [machine, step] at h
      split at h
      · rename_i hs
        cases h
        exact .daemon hs rfl
      · exact nomatch h
  | .device l, h => by
      simp only [machine, step] at h
      split at h
      · rename_i hs
        cases h
        exact .device hs rfl
      · exact nomatch h
  | .lose up down, h => by
      simp only [machine, step] at h
      split_ifs at h
      cases h
      exact .lose

/-- The captures of the device stay owned, whatever the two do. -/
theorem owned_moved {l : Label} (h : s.device.Owned (deviceEvents es))
    (hm : Moved fromPayload s l s' es') : s'.device.Owned (deviceEvents (es ++ es')) := by
  cases hm with
  | daemon _ hd =>
      rw [deviceEvents_append_daemon, hd]
      exact h
  | device hs =>
      rw [deviceEvents_append_device]
      exact h.step hs
  | lose =>
      rw [List.append_nil]
      exact h

theorem stopsOwn_moved {l : Label} (h : s.device.Owned (deviceEvents es))
    (hm : Moved fromPayload s l s' es') :
    StopsOwn s l ↔ Machine.Each (fun before => Event.EndsOwn (es ++ before)) es' := by
  cases hm with
  | daemon =>
      rw [Machine.each_map]
      exact ⟨fun _ _ _ _ _ => trivial, fun _ => trivial⟩
  | device hs =>
      rw [Machine.each_map]
      simp only [Event.EndsOwn, deviceEvents_append_device]
      exact h.stopsOwn_iff hs
  | lose => exact ⟨fun _ => Machine.each_nil, fun _ => trivial⟩

/-- **A stream belongs to the client that opened it where stops find no other
capture.**  In a run of the daemon and the device, no STREAM_STOP ends a capture
but the one that the REQ with its seq has started, exactly if every STREAM_STOP
that is handled finds no active capture with another seq. -/
theorem stream_belongs_iff {ls : List Label}
    (hr : (machine cb fromPayload).run .initial ls = some (s, es)) :
    (machine cb fromPayload).Guarded StopsOwn .initial ls ↔ Machine.Each Event.EndsOwn es :=
  Machine.guarded_iff_each (G := StopsOwn) (P := fun s es => s.device.Owned (deviceEvents es))
    (Q := Event.EndsOwn) (fun h hs => owned_moved h (step_moved hs))
    (fun h hs => stopsOwn_moved h (step_moved hs)) (.initial _) hr

end

/-! ## A run where a stop ends the capture of another client -/

/-- The body of the REQ for an IR capture. -/
def captureReq : List UInt8 := Cbor.head 4 3 ++ textBody "ir" ++ textBody "capture" ++ [0xF6]

/-- A decoder of that body. -/
def fromCaptureReq (payload : List UInt8) : Option Req :=
  if payload = captureReq then some ⟨"ir", "capture", .null⟩ else none

/-- The hardware is there and at rest. -/
def calm : Device.Hal where
  ir := { busy := false, alloc := true }
  subghz := { device := true, frequencyValid _ := true, begin := true, alloc := true }
  hardware _ _ _ := .ok .null

/-- The owner's frame comes to the device and is handled. -/
def deviceLabels (bytes : List UInt8) : List Label :=
  [.device (.receive bytes false), .device (.handle calm)]

def helloFrame : Frame := { typ := .hello, flags := 0, seq := 0, payload := helloBody 0 }

/-- The device's CAPS. -/
def capsFrame : Frame :=
  { typ := .caps, flags := 0, seq := 0, payload := capsBody protocolVersion buildCaps }

/-- The owner finds the device and says HELLO. -/
def helloLabels : List Label :=
  [.daemon (.owner (.opened true)), .daemon (.owner (.wrote true))] ++ deviceLabels helloFrame.wire

/-- The owner reads the device's CAPS and is ready to pump. -/
def capsLabels : List Label :=
  [.daemon (.owner .go), .daemon (.owner (.read (some capsFrame.wire))), .daemon (.owner .go),
    .daemon (.owner .go), .daemon (.owner .go)]

/-- Client `i` sends a frame, and its thread queues it as the request `seq`; the
owner writes it, and the device handles it. -/
def askLabels (i : Nat) (typ : MsgType) (c seq : UInt16) (payload : List UInt8) : List Label :=
  [.daemon (.client i (.read (.data (wire typ 0 c payload)))), .daemon (.client i .go),
    .daemon (.client i .go), .daemon (.client i .go), .daemon (.client i .go),
    .daemon (.owner .go), .daemon (.owner (.wrote true)), .daemon (.owner .go)] ++
  deviceLabels (wire typ 0 seq payload)

/-- The STREAM_START comes to client 0, which stops its stream. -/
def ownStopLabels : List Label :=
  [.daemon (.owner .go),
    .daemon (.owner (.read (some (wire .streamStart 0 1 (streamStartBody streamFormatRawI32Us))))),
    .daemon (.owner .go), .daemon (.owner .go), .daemon (.owner .go), .daemon (.owner .go),
    .daemon (.client 0 .go), .daemon (.client 0 (.wrote true)), .daemon (.client 0 .go),
    .daemon (.client 0 (.read (.data (wire .streamStop 0 5 [])))), .daemon (.client 0 .go),
    .daemon (.client 0 .go), .daemon (.owner .go), .daemon (.owner (.wrote true))] ++
  deviceLabels (wire .streamStop 0 1 [])

/-- Of each frame that the device has handled, the type, the seq, and the seqs of
the captures it ended. -/
def endings (es : List Event) : List (MsgType × UInt16 × List UInt16) :=
  es.filterMap fun
    | .device (.handled typ seq sent) => some (typ, seq, Device.stopSeqs sent)
    | _ => none

/-- The owner waits for CAPS, and the device has sent it. -/
def greeted : State :=
  { State.initial with
    daemon := { Daemon.State.initial with owner := .handshake 1 .new 2000 }
    up := capsFrame.wire }

/-- The owner is ready to pump. -/
def connected : State :=
  { State.initial with
    daemon := { Daemon.State.initial with
      owner := .out .new
      router := Router.new.setCaps capsFrame.payload } }

theorem take_nil (n : Nat) (up : List UInt8) : take n [] up = some up := by
  rw [take, if_pos ⟨Nat.zero_le n, List.nil_prefix⟩]
  rfl

theorem take_self {n : Nat} {bytes : List UInt8} (h : bytes.length ≤ n) :
    take n bytes bytes = some [] := by
  rw [take, if_pos ⟨h, List.prefix_rfl⟩, List.drop_length]

section Startup

variable {ε : Type} (cb : Minicbor ε) (fromPayload : List UInt8 → Option Req)

theorem bytes_caps : (Sent.caps 0).bytes cb = capsFrame.wire := by
  show (frameBytes .caps 0 0 (capsBody protocolVersion buildCaps)).getD [] = _
  rw [frameBytes_eq _ _ _ (by decide)]
  rfl

theorem bytes_hello : (frameBytes .hello 0 0 (helloBody 0)).getD [] = helloFrame.wire := by
  rw [frameBytes_eq _ _ _ (by decide)]
  rfl

/-- A device at rest receives a whole frame. -/
theorem step_receive {s : State} {f : Frame} (hd : s.device = .initial) (hdown : s.down = f.wire)
    (hlen : f.wire.length ≤ MainLoop.chunkSize) :
    (machine cb fromPayload).step s (.device (.receive f.wire false))
      = some ({ s with
          device := { Device.initial with todo := [MainLoop.dispatch f] }, down := [] },
        [.device (.drained [])]) := by
  have hsize : MainLoop.size f ≤ MainLoop.maxFrame := by
    rw [← MainLoop.length_frame_wire]
    exact Nat.le_trans hlen (by decide)
  simp only [machine, step, receives]
  rw [hdown, take_self hlen, hd, Device.receive_wire fromPayload hsize]
  simp [sends]

/-- A HELLO is answered with CAPS. -/
theorem step_hello {s : State} {payload : List UInt8}
    (hd : s.device = { Device.initial with todo := [.handleFrame .hello 0 payload] })
    (hdown : s.down = []) (hup : s.up = []) :
    (machine cb fromPayload).step s (.device (.handle calm))
      = some ({ s with device := .initial, up := capsFrame.wire },
        [.device (.handled .hello 0 [.caps 0])]) := by
  simp only [machine, step]
  rw [hd, hdown, hup, ← bytes_caps cb]
  simp [receives, take, Device.step, Device.handleFrame, sends, Device.initial]

theorem run_hello :
    (machine cb fromPayload).run .initial helloLabels
      = some (greeted, [.device (.drained []), .device (.handled .hello 0 [.caps 0])]) := by
  have hopen : (machine cb fromPayload).step .initial (.daemon (.owner (.opened true)))
      = some ({ State.initial with daemon := { Daemon.State.initial with owner := .helloWrite 1 } },
          []) := rfl
  have hwrote : (machine cb fromPayload).step
      { State.initial with daemon := { Daemon.State.initial with owner := .helloWrite 1 } }
      (.daemon (.owner (.wrote true)))
      = some ({ State.initial with
          daemon := { Daemon.State.initial with owner := .handshake 1 .new 2000 }
          down := helloFrame.wire }, []) := by
    rw [← bytes_hello]
    rfl
  have hreceive := step_receive cb fromPayload (f := helloFrame)
    (s := { State.initial with
      daemon := { Daemon.State.initial with owner := .handshake 1 .new 2000 }
      down := helloFrame.wire }) rfl rfl (by decide)
  have hhandle := @step_hello _ cb fromPayload
    { State.initial with
      daemon := { Daemon.State.initial with owner := .handshake 1 .new 2000 }
      device := { Device.initial with todo := [MainLoop.dispatch helloFrame] } }
    helloFrame.payload rfl rfl rfl
  exact Machine.run_step hopen (Machine.run_step hwrote (Machine.run_step hreceive
    (Machine.run_step hhandle rfl)))

theorem run_caps {s : State} {f : Frame} {attempt deadline : Nat}
    (ho : s.daemon.owner = .handshake attempt .new deadline) (hnow : s.daemon.now < deadline)
    (hup : s.up = f.wire) (hlen : f.wire.length ≤ 512) (ht : f.typ = .caps) :
    (machine cb fromPayload).run s
        [.daemon (.owner .go), .daemon (.owner (.read (some f.wire))), .daemon (.owner .go),
          .daemon (.owner .go), .daemon (.owner .go)]
      = some ({ s with
          daemon := { s.daemon with
            owner := .out .new, router := s.daemon.router.setCaps f.payload }
          up := [] },
        [.daemon (.arrived f)]) := by
  have hnew : FrameReader.new.nextFrame = (none, .new) := rfl
  have hnext : (FrameReader.new.feed f.wire).nextFrame = (some f, .new) := by
    have hn : f.payload.length ≤ 0xFFFF := by
      have := MainLoop.length_frame_wire f
      rw [MainLoop.size] at this
      omega
    have hwire := FrameReader.nextFrame_wire hn []
    rw [List.append_nil] at hwire
    rw [FrameReader.new_feed]
    exact hwire
  have hne : f.wire.isEmpty = false := rfl
  have hlt : ¬ s.daemon.now ≥ deadline := Nat.not_le.mpr hnow
  obtain ⟨⟨now, router, outbound, wakes, threads, channels, owner, registered, holder, started⟩,
    device, up, down⟩ := s
  cases ho
  cases hup
  let at_ (owner : Daemon.Owner) (up : List UInt8) : State :=
    ⟨⟨now, router, outbound, wakes, threads, channels, owner, registered, holder, started⟩,
      device, up, down⟩
  have hwait (reader : FrameReader) (hr : reader.nextFrame = (none, reader)) :
      (machine cb fromPayload).step (at_ (.handshake attempt reader deadline) f.wire)
        (.daemon (.owner .go))
      = some (at_ (.handshakeRead attempt reader deadline) f.wire, []) := by
    simp only [machine, step, reads, take_nil, Daemon.step, Daemon.ownerStep, at_,
      Daemon.Owner.need, Daemon.own, Daemon.Owner.resume, hr, if_neg hlt, writes, List.append_nil]
    rfl
  have hread : (machine cb fromPayload).step (at_ (.handshakeRead attempt .new deadline) f.wire)
      (.daemon (.owner (.read (some f.wire))))
      = some (at_ (.handshake attempt (.feed .new f.wire) deadline) [], []) := by
    simp only [machine, step, reads, scratchSize, take_self hlen, Daemon.step, Daemon.ownerStep,
      at_, Daemon.Owner.need, Daemon.own, Daemon.Owner.resume, hne, writes, List.append_nil]
    rfl
  have hdecode : (machine cb fromPayload).step
      (at_ (.handshake attempt (.feed .new f.wire) deadline) []) (.daemon (.owner .go))
      = some (at_ (.see attempt .new deadline f) [], []) := by
    simp only [machine, step, reads, take_nil, Daemon.step, Daemon.ownerStep, at_,
      Daemon.Owner.need, Daemon.own, Daemon.Owner.resume, hnext, writes, List.append_nil]
    rfl
  have hsee : (machine cb fromPayload).step (at_ (.see attempt .new deadline f) [])
      (.daemon (.owner .go)) = some (at_ (.cache f.payload) [], [.daemon (.arrived f)]) := by
    have hstart : ¬ f.typ = .streamStart := by
      rw [ht]
      decide
    simp only [machine, step, reads, take_nil, Daemon.step, Daemon.ownerStep, at_,
      Daemon.Owner.need, Daemon.own, Daemon.Owner.resume, Daemon.mark, if_neg hstart, if_pos ht,
      writes, List.append_nil]
    rfl
  have hcache : (machine cb fromPayload).step (at_ (.cache f.payload) []) (.daemon (.owner .go))
      = some (⟨⟨now, router.setCaps f.payload, outbound, wakes, threads, channels, .out .new,
          registered, holder, started⟩, device, [], down⟩, []) := by
    simp only [machine, step, reads, take_nil, Daemon.step, Daemon.ownerStep, at_,
      Daemon.Owner.need, Daemon.own, Daemon.Owner.resume, writes, List.append_nil]
    rfl
  exact Machine.run_step (hwait .new hnew) (Machine.run_step hread (Machine.run_step hdecode
    (Machine.run_step hsee (Machine.run_step hcache rfl))))

theorem run_startup :
    ∃ es, (machine cb fromPayload).run .initial (helloLabels ++ capsLabels) = some (connected, es) ∧
      endings es = [(.hello, 0, [])] :=
  ⟨_, Machine.run_append (run_hello cb fromPayload)
    (run_caps cb fromPayload (s := greeted) rfl (by decide) rfl (by decide) rfl), rfl⟩

end Startup

/-- The runs below: client 0 has a capture, and client 1, which has none, sends a
STREAM_STOP; or client 0 stops its capture. -/
theorem runs :
    ((machine rfc8949 fromCaptureReq).run connected
      (askLabels 0 .req 5 1 captureReq ++ askLabels 1 .streamStop 9 2 [])).map
        (fun p => endings p.2) = some [(.req, 1, []), (.streamStop, 2, [1])] ∧
    ((machine rfc8949 fromCaptureReq).run connected
      (askLabels 0 .req 5 1 captureReq ++ ownStopLabels)).map (fun p => endings p.2)
        = some [(.req, 1, []), (.streamStop, 1, [1])] := by
  decide +kernel

theorem guarded_runs :
    (machine rfc8949 fromCaptureReq).Guarded StopsOwn .initial helloLabels ∧
    (machine rfc8949 fromCaptureReq).Guarded StopsOwn connected
      (askLabels 0 .req 5 1 captureReq ++ ownStopLabels) := by
  decide +kernel

theorem guarded_startup :
    (machine rfc8949 fromCaptureReq).Guarded StopsOwn .initial (helloLabels ++ capsLabels) := by
  refine Machine.guarded_append (run_hello rfc8949 fromCaptureReq) guarded_runs.1 ?_
  refine Machine.guarded_of_forall fun i hi s => ?_
  simp only [capsLabels, List.mem_cons, List.not_mem_nil, or_false] at hi
  rcases hi with rfl | rfl | rfl | rfl | rfl <;> trivial

theorem endings_append (es es' : List Event) : endings (es ++ es') = endings es ++ endings es' :=
  List.filterMap_append

/-- It is not so that in every run a STREAM_STOP ends only the capture it is for. -/
theorem foreign_stop :
    ¬ ∀ (ls : List Label) (s : State) (es : List Event),
      (machine rfc8949 fromCaptureReq).run .initial ls = some (s, es) →
      Machine.Each Event.EndsOwn es := by
  intro h
  obtain ⟨es₁, hr₁, -⟩ := run_startup rfc8949 fromCaptureReq
  obtain ⟨⟨s, es⟩, hr, hes⟩ := Option.map_eq_some_iff.mp runs.1
  have hmem : (.streamStop, 2, [1]) ∈ endings (es₁ ++ es) := by
    rw [endings_append, hes]
    exact List.mem_append_right _ (by decide)
  obtain ⟨e, he, hend⟩ := List.mem_filterMap.mp hmem
  obtain ⟨before, after, hsplit⟩ := List.append_of_mem he
  have hown := h _ s _ (Machine.run_append hr₁ hr) before e after hsplit
  split at hend
  · rename_i typ seq sent
    obtain ⟨rfl, hrest⟩ := Prod.mk.inj (Option.some.inj hend)
    obtain ⟨rfl, hseqs⟩ := Prod.mk.inj hrest
    exact absurd (hown 1 (by rw [hseqs]; exact List.mem_singleton_self _)).1 (by decide)
  · exact nomatch hend

/-- A client that stops its own capture. -/
theorem stream_belongs_own :
    ∃ s es, (machine rfc8949 fromCaptureReq).run .initial
        (helloLabels ++ capsLabels ++ (askLabels 0 .req 5 1 captureReq ++ ownStopLabels))
        = some (s, es) ∧
      endings es = [(.hello, 0, []), (.req, 1, []), (.streamStop, 1, [1])] ∧
      Machine.Each Event.EndsOwn es := by
  obtain ⟨es₁, hr₁, hes₁⟩ := run_startup rfc8949 fromCaptureReq
  obtain ⟨⟨s, es⟩, hr, hes⟩ := Option.map_eq_some_iff.mp runs.2
  have hwhole := Machine.run_append hr₁ hr
  refine ⟨s, _, hwhole, by rw [endings_append, hes₁, hes]; rfl, (stream_belongs_iff hwhole).mp ?_⟩
  exact Machine.guarded_append hr₁ guarded_startup guarded_runs.2

end FlipLink.Bridge

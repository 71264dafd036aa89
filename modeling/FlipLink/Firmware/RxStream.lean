/-
# `FlipLink.Firmware.RxStream` — the RX interrupt and the main loop, step by step

`rx_callback` puts the packets of the USB endpoint into a stream buffer of 1024 bytes
and raises `RX_OVERFLOWED` when one did not fit whole; the main loop takes the bytes
out.  The interrupt may run between any two steps of the loop, so here each call of the
loop on something the two share, and each change of the accumulator, is a step of its
own.  `MainLoop.turn` is the same loop with the steps of a turn taken together
(`turn_of_steps`).

A packet that is cut leaves a gap in the buffer, and bytes from both sides of it may
come out in one receive.  What keeps them apart is the order of the two accesses to the
flag: it is raised with the gap and lowered behind a receive, and whoever lowers it
throws away the accumulator and all the buffer holds.  So where the flag is down, the
accumulator, the bytes just received and the buffer are one run of bytes, the last that
have arrived (`Inv.unbroken`).
-/
import FlipLink.Firmware.MainLoop
import FlipLink.Lib.Machine
import FlipLink.Lib.StreamBuffer
import FlipLink.Proto.Image

namespace FlipLink.RxStream

open Lib
open MainLoop (Dispatch rxStreamCap chunkSize maxIdle maxFrame)

/-! ## The machine -/

/-- Where the main loop is. -/
inductive Pc where
  /-- At the top of a turn. -/
  | receive
  | swap
  -- the overflow branch
  | clear
  | drain
  -- the received bytes
  | append
  | limit
  | decode
  /-- The frame at the front has been passed on. -/
  | consume (used : Nat)
  deriving DecidableEq, Repr

structure Rx where
  /-- `RX_STREAM`. -/
  stream : StreamBuffer UInt8 rxStreamCap
  /-- `RX_OVERFLOWED`. -/
  overflowed : Bool
  acc : List UInt8
  /-- The part of `chunk` that was received. -/
  chunk : List UInt8
  idle : Nat
  capturing : Bool
  pc : Pc

def Rx.initial : Rx where
  stream := .empty
  overflowed := false
  acc := []
  chunk := []
  idle := 0
  capturing := false
  pc := .receive

inductive Label where
  /-- The interrupt, with the packet that `furi_hal_cdc_receive` reads. -/
  | rxCallback (packet : List UInt8)
  /-- The next step of the main loop, with what it finds in `RUNNING` and in the
  captures. -/
  | main (running capturing : Bool)

inductive Event where
  | arrived (packet : List UInt8)
  /-- The bytes of a frame, passed to the echo or to `handle_frame`. -/
  | passed (f : Frame) (bytes : List UInt8)
  deriving DecidableEq

/-- `rx_callback`. -/
def Rx.rxCallback (packet : List UInt8) (s : Rx) : Rx :=
  if packet.length > 0 then
    let r := s.stream.send packet
    if r.1 ≠ packet.length then { s with stream := r.2, overflowed := true }
    else { s with stream := r.2 }
  else s

/-- The next step of `main`. -/
def Rx.main (running capturing : Bool) (s : Rx) : Option (Rx × List Event) :=
  match s.pc with
  | .receive =>
      if running && s.idle < maxIdle then
        let r := s.stream.receive chunkSize
        some ({ s with stream := r.2, chunk := r.1, pc := .swap }, [])
      else none
  | .swap =>
      if s.overflowed then some ({ s with overflowed := false, pc := .clear }, [])
      else some ({ s with overflowed := false, capturing, pc := .append }, [])
  | .clear => some ({ s with acc := [], pc := .drain }, [])
  | .drain =>
      let r := s.stream.receive chunkSize
      if r.1.length = 0 then
        some ({ s with stream := r.2, chunk := r.1, idle := 0, pc := .receive }, [])
      else some ({ s with stream := r.2, chunk := r.1 }, [])
  | .append =>
      if s.chunk.length = 0 then
        some ({ s with idle := if s.capturing then s.idle else s.idle + 1, pc := .receive }, [])
      else some ({ s with idle := 0, acc := s.acc ++ s.chunk, pc := .limit }, [])
  | .limit =>
      if s.acc.length > maxFrame then some ({ s with acc := [], pc := .receive }, [])
      else some ({ s with pc := .decode }, [])
  | .decode =>
      match decode s.acc with
      | .frame f used => some ({ s with pc := .consume used }, [.passed f (s.acc.take used)])
      | .needMore => some ({ s with pc := .receive }, [])
      | .resync =>
          if s.acc.isEmpty then some ({ s with pc := .receive }, [])
          else some ({ s with acc := s.acc.drop 1 }, [])
  | .consume used => some ({ s with acc := s.acc.drop used, pc := .decode }, [])

def step (s : Rx) : Label → Option (Rx × List Event)
  | .rxCallback packet =>
      if packet.length ≤ chunkSize then some (s.rxCallback packet, [.arrived packet]) else none
  | .main running capturing => s.main running capturing

def machine : Machine Rx Label Event where
  step := step

/-- The bytes that have arrived. -/
def onWire (es : List Event) : List UInt8 :=
  es.flatMap fun
    | .arrived packet => packet
    | .passed .. => []

/-- The frames passed on. -/
def passedOn (es : List Event) : List Dispatch :=
  es.filterMap fun
    | .arrived _ => none
    | .passed f _ => some (MainLoop.dispatch f)

theorem onWire_append (es es' : List Event) : onWire (es ++ es') = onWire es ++ onWire es' :=
  List.flatMap_append

theorem passedOn_append (es es' : List Event) :
    passedOn (es ++ es') = passedOn es ++ passedOn es' :=
  List.filterMap_append

/-! ## The invariant -/

namespace Rx

/-- The bytes that the loop holds: those in the accumulator and, before they are put
there, those just received. -/
def held (s : Rx) : List UInt8 :=
  match s.pc with
  | .swap | .append => s.acc ++ s.chunk
  | _ => s.acc

/-- The loop is emptying the buffer. -/
def Emptying (s : Rx) : Prop := s.pc = .clear ∨ s.pc = .drain

/-- The loop holds the accumulator only. -/
def Plain (s : Rx) : Prop :=
  match s.pc with
  | .swap | .append | .clear | .drain => False
  | _ => True

theorem Plain.pc_ne {s : Rx} (h : s.Plain) : s.pc ≠ .append ∧ s.pc ≠ .drain ∧ ¬ s.Emptying := by
  unfold Plain at h
  split at h
  · exact h.elim
  · exact h.elim
  · exact h.elim
  · exact h.elim
  · rename_i hclear hdrain
    exact ⟨by assumption, hdrain, fun he => he.elim hclear hdrain⟩

theorem Plain.held_eq {s : Rx} (h : s.Plain) : s.held = s.acc := by
  unfold Plain at h
  unfold held
  split <;> simp_all

end Rx

/-- What holds of every state, with the bytes that have arrived. -/
structure Inv (s : Rx) (bytes : List UInt8) : Prop where
  accumulated : s.acc <:+: bytes
  /-- No gap without the flag. -/
  unbroken : ¬ s.Emptying → s.overflowed = false → s.held ++ s.stream.items <:+ bytes
  appending : s.pc = .append → s.acc ++ s.chunk <:+: bytes
  cleared : s.pc = .drain → s.acc = []

theorem Inv.initial : Inv .initial [] where
  accumulated := List.infix_refl _
  unbroken _ _ := List.suffix_refl _
  appending h := Pc.noConfusion h
  cleared h := Pc.noConfusion h

/-- Where only the accumulator is held, this is all there is to show. -/
theorem Inv.of_plain {s : Rx} {bytes : List UInt8} (hpc : s.Plain) (hacc : s.acc <:+: bytes)
    (hwhole : s.overflowed = false → s.acc ++ s.stream.items <:+ bytes) : Inv s bytes where
  accumulated := hacc
  unbroken _ hflag := hpc.held_eq ▸ hwhole hflag
  appending h := absurd h hpc.pc_ne.1
  cleared h := absurd h hpc.pc_ne.2.1

theorem Inv.of_plain_suffix {s s' : Rx} {bytes : List UInt8} (h : Inv s bytes) (hpc : s.Plain)
    (hpc' : s'.Plain) (hacc : s'.acc <:+ s.acc) (hstream : s'.stream = s.stream)
    (hflag : s'.overflowed = s.overflowed) : Inv s' bytes := by
  refine .of_plain hpc' (hacc.isInfix.trans h.accumulated) fun hf => ?_
  obtain ⟨pre, hpre⟩ := hacc
  obtain ⟨pre', hpre'⟩ := h.unbroken hpc.pc_ne.2.2 (hflag.symm.trans hf)
  rw [hpc.held_eq, ← hpre] at hpre'
  refine ⟨pre' ++ pre, ?_⟩
  rw [hstream, ← hpre']
  simp only [List.append_assoc]

/-- The interrupt appends a packet to the buffer whole, or raises the flag. -/
theorem rxCallback_cases (packet : List UInt8) (s : Rx) :
    ∃ stream overflowed, s.rxCallback packet = { s with stream, overflowed } ∧
      (overflowed = true ∨
        overflowed = s.overflowed ∧ stream.items = s.stream.items ++ packet) := by
  unfold Rx.rxCallback
  dsimp only
  split_ifs with hpos hsent
  · exact ⟨_, _, rfl, .inl rfl⟩
  · refine ⟨_, _, rfl, .inr ⟨rfl, ?_⟩⟩
    have hfit := StreamBuffer.send_fst_eq_length.mp (not_not.mp hsent)
    rw [StreamBuffer.send_items, List.take_of_length_le hfit]
  · refine ⟨_, _, rfl, .inr ⟨rfl, ?_⟩⟩
    rw [List.eq_nil_of_length_eq_zero (Nat.eq_zero_of_not_pos hpos), List.append_nil]

theorem Inv.rxCallback {s : Rx} {bytes : List UInt8} (h : Inv s bytes) (packet : List UInt8) :
    Inv (s.rxCallback packet) (bytes ++ packet) := by
  obtain ⟨stream, overflowed, heq, hcases⟩ := rxCallback_cases packet s
  have hgrow : ∀ {x : List UInt8}, x <:+: bytes → x <:+: bytes ++ packet := fun hx =>
    hx.trans (List.prefix_append _ _).isInfix
  rw [heq]
  refine ⟨hgrow h.accumulated, fun hne hflag => ?_, fun hpc => hgrow (h.appending hpc), h.cleared⟩
  rcases hcases with hraised | ⟨hsame, hitems⟩
  · cases hraised.symm.trans hflag
  · obtain ⟨pre, hpre⟩ := h.unbroken hne (hsame.symm.trans hflag)
    refine ⟨pre, ?_⟩
    show pre ++ (s.held ++ stream.items) = _
    rw [hitems, ← hpre]
    simp only [List.append_assoc]

/-- A receive moves bytes from the buffer to the chunk. -/
theorem chunk_append (s : Rx) : (s.stream.receive chunkSize).1 ++
    (s.stream.receive chunkSize).2.items = s.stream.items :=
  List.take_append_drop chunkSize s.stream.items

/-- A receive that delivers nothing found the buffer empty. -/
theorem items_of_chunk {s : Rx} (h : (s.stream.receive chunkSize).1.length = 0) :
    s.stream.items = [] := by
  rcases List.take_eq_nil_iff.mp (List.eq_nil_of_length_eq_zero h) with h64 | hnil
  · exact absurd h64 (by decide)
  · exact hnil

theorem Inv.main {s s' : Rx} {bytes : List UInt8} {es : List Event} (h : Inv s bytes)
    {running capturing : Bool} (hs : s.main running capturing = some (s', es)) : Inv s' bytes := by
  have hacc := h.accumulated
  unfold Rx.main at hs
  dsimp only at hs
  split at hs
  · -- receive: the bytes leave the buffer and are held
    rename_i hpc
    have hplain : s.Plain := by
      rw [Rx.Plain, hpc]
      trivial
    split_ifs at hs
    cases hs
    refine ⟨hacc, fun _ hflag => ?_, fun h => Pc.noConfusion h, fun h => Pc.noConfusion h⟩
    have hw := h.unbroken hplain.pc_ne.2.2 hflag
    rw [hplain.held_eq, ← chunk_append, ← List.append_assoc] at hw
    exact hw
  · -- swap: only with the flag down does what is held reach the accumulator
    rename_i hpc
    split_ifs at hs with hflag
    · cases hs
      exact ⟨hacc, fun hne => absurd (.inl rfl) hne, fun h => Pc.noConfusion h,
        fun h => Pc.noConfusion h⟩
    · cases hs
      have hne : ¬ s.Emptying := by simp [Rx.Emptying, hpc]
      have hw := h.unbroken hne (Bool.eq_false_iff.mpr hflag)
      rw [Rx.held, hpc] at hw
      refine ⟨hacc, fun _ _ => hw, fun _ => ?_, fun h => Pc.noConfusion h⟩
      exact (List.prefix_append _ _).isInfix.trans hw.isInfix
  · -- clear
    cases hs
    exact ⟨List.nil_infix, fun hne => absurd (.inr rfl) hne, fun h => Pc.noConfusion h,
      fun _ => rfl⟩
  · -- drain: the last turn of it leaves the buffer empty
    rename_i hpc
    have hnil := h.cleared hpc
    split_ifs at hs with hempty
    · cases hs
      refine .of_plain trivial hacc fun _ => ?_
      show s.acc ++ s.stream.items.drop chunkSize <:+ bytes
      rw [hnil, items_of_chunk hempty]
      exact List.nil_suffix
    · cases hs
      exact ⟨hacc, fun hne => absurd (.inr hpc) hne, fun h => Pc.noConfusion (hpc.symm.trans h),
        fun _ => hnil⟩
  · -- append
    rename_i hpc
    have hne : ¬ s.Emptying := by simp [Rx.Emptying, hpc]
    have hw := h.unbroken hne
    rw [Rx.held, hpc] at hw
    dsimp only at hw
    by_cases hempty : s.chunk.length = 0
    · rw [if_pos hempty] at hs
      cases hs
      rw [List.eq_nil_of_length_eq_zero hempty, List.append_nil] at hw
      exact .of_plain trivial hacc hw
    · rw [if_neg hempty] at hs
      cases hs
      exact .of_plain trivial (h.appending hpc) hw
  all_goals
    rename_i hpc
    have hplain : s.Plain := by
      rw [Rx.Plain, hpc]
      trivial
  · -- limit
    split_ifs at hs
    · cases hs
      exact h.of_plain_suffix hplain trivial List.nil_suffix rfl rfl
    · cases hs
      exact h.of_plain_suffix hplain trivial (List.suffix_refl _) rfl rfl
  · -- decode
    split at hs
    · cases hs
      exact h.of_plain_suffix hplain trivial (List.suffix_refl _) rfl rfl
    · cases hs
      exact h.of_plain_suffix hplain trivial (List.suffix_refl _) rfl rfl
    · split_ifs at hs
      · cases hs
        exact h.of_plain_suffix hplain trivial (List.suffix_refl _) rfl rfl
      · cases hs
        refine h.of_plain_suffix hplain ?_ (List.drop_suffix _ _) rfl rfl
        rw [Rx.Plain, hpc]
        trivial
  · -- consume
    cases hs
    exact h.of_plain_suffix hplain trivial (List.drop_suffix _ _) rfl rfl

/-! ## Over a run -/

/-- A step of the main loop passes on the frame at the front of the accumulator, or
nothing. -/
theorem main_events {s s' : Rx} {es : List Event} {running capturing : Bool}
    (hs : s.main running capturing = some (s', es)) :
    es = [] ∨ ∃ f used, decode s.acc = .frame f used ∧ es = [.passed f (s.acc.take used)] := by
  unfold Rx.main at hs
  dsimp only at hs
  split at hs
  case h_7 =>
    split at hs
    · rename_i f used hd
      cases hs
      exact .inr ⟨f, used, hd, rfl⟩
    · cases hs
      exact .inl rfl
    · split_ifs at hs <;> cases hs <;> exact .inl rfl
  case h_3 | h_8 =>
    cases hs
    exact .inl rfl
  all_goals
    split_ifs at hs
    all_goals
      cases hs
      exact .inl rfl

/-- A frame that is passed on is in one piece among the bytes that have arrived. -/
def Event.Contiguous (before : List Event) : Event → Prop
  | .passed f bytes => bytes <:+: onWire before ∧ ∃ version, bytes = wireAs version f
  | .arrived _ => True

theorem step_contiguous {s s' : Rx} {es es' : List Event} (h : Inv s (onWire es)) :
    ∀ {l : Label}, step s l = some (s', es') →
      Inv s' (onWire (es ++ es')) ∧ Machine.Each (fun before => Event.Contiguous (es ++ before)) es'
  | .rxCallback packet, hs => by
      simp only [step] at hs
      split_ifs at hs
      cases hs
      refine ⟨?_, Machine.each_singleton.mpr trivial⟩
      rw [onWire_append]
      have hpacket : onWire [.arrived packet] = packet := List.append_nil packet
      rw [hpacket]
      exact h.rxCallback packet
  | .main running capturing, hs => by
      have hs : s.main running capturing = some (s', es') := hs
      have hmain := h.main hs
      rcases main_events hs with rfl | ⟨f, used, hd, rfl⟩
      · rw [List.append_nil]
        exact ⟨hmain, Machine.each_nil⟩
      · refine ⟨?_, Machine.each_singleton.mpr ?_⟩
        · rw [onWire_append]
          have hnil : onWire [.passed f (s.acc.take used)] = [] := rfl
          rw [hnil, List.append_nil]
          exact hmain
        · rw [List.append_nil]
          exact ⟨(List.take_prefix _ _).isInfix.trans h.accumulated, _, decode_eq_wireAs hd⟩

/-- **An overflow never splices a frame.**  Whenever the interrupt runs between the
steps of the main loop, and whatever packets it finds: the accumulator is a contiguous
part of the bytes that have arrived, and every frame passed to the echo or to
`handle_frame` was, byte for byte, one before it was passed on. -/
theorem never_spliced {ls : List Label} {s : Rx} {es : List Event}
    (h : machine.run .initial ls = some (s, es)) :
    s.acc <:+: onWire es ∧ Machine.Each Event.Contiguous es := by
  suffices key : Inv s (onWire es) ∧ Machine.Each Event.Contiguous es from
    ⟨key.1.accumulated, key.2⟩
  refine Machine.run_events (P := fun s es => Inv s (onWire es) ∧ Machine.Each Event.Contiguous es)
    (fun hP hs => ?_) ⟨.initial, Machine.each_nil⟩ h
  obtain ⟨hinv, heach⟩ := step_contiguous hP.1 hs
  exact ⟨hinv, Machine.each_append.mpr ⟨hP.2, heach⟩⟩

/-- Packets until the buffer has no room for the last of them: four of its bytes are put. -/
def flood : List Label := List.replicate 18 (.rxCallback (List.replicate 60 0))

/-- The loop receives, finds the flag, clears the accumulator and empties the buffer. -/
def emptying : List Label := List.replicate 19 (.main true false)

/-- A PING in two packets, each taken in by a turn of its own. -/
def pingInTwo : List Label :=
  .rxCallback [166, 241, 1, 10] :: List.replicate 5 (.main true false) ++
    .rxCallback [0, 7, 0, 0, 0, 0, 0, 108, 170] :: List.replicate 5 (.main true false)

/-- What arrives before the PING is passed on. -/
def floodThenPing : List Event :=
  List.replicate 18 (.arrived (List.replicate 60 0)) ++
    [.arrived [166, 241, 1, 10], .arrived [0, 7, 0, 0, 0, 0, 0, 108, 170]]

/-- A packet is cut, and the PING behind it is passed on whole. -/
theorem never_spliced_ping :
    (machine.final .initial flood).overflowed = true ∧
      (machine.run .initial (flood ++ emptying ++ pingInTwo)).map Prod.snd
        = some (floodThenPing ++ [.passed { typ := .ping, flags := 0, seq := 7, payload := [] }
            [166, 241, 1, 10, 0, 7, 0, 0, 0, 0, 0, 108, 170]]) ∧
      [166, 241, 1, 10, 0, 7, 0, 0, 0, 0, 0, 108, 170] <:+: onWire floodThenPing := by
  have hrun : (machine.run .initial (flood ++ emptying ++ pingInTwo)).map Prod.snd
      = some (floodThenPing ++ [.passed { typ := .ping, flags := 0, seq := 7, payload := [] }
          [166, 241, 1, 10, 0, 7, 0, 0, 0, 0, 0, 108, 170]]) := by
    decide +kernel
  exact ⟨by decide +kernel, hrun,
    ((never_spliced (Machine.run_final hrun)).2 floodThenPing _ [] rfl).1⟩

/-! ## A turn of the loop -/

theorem drain_of_frame {acc : List UInt8} {f : Frame} {used : Nat}
    (h : decode acc = .frame f used) :
    MainLoop.drain acc = (MainLoop.dispatch f :: (MainLoop.drain (acc.drop used)).1,
      (MainLoop.drain (acc.drop used)).2) := by
  rw [MainLoop.drain_eq, MainLoop.drain_eq, codec.drain_of_some (codec.next_of_frame h)]
  rfl

theorem drain_of_needMore {acc : List UInt8} (h : decode acc = .needMore) :
    MainLoop.drain acc = ([], acc) := by
  rw [MainLoop.drain_eq, codec.drain_of_none (codec.next_of_needMore h)]
  rfl

theorem drain_of_resync : ∀ {acc : List UInt8}, decode acc = .resync → acc.isEmpty = false →
    MainLoop.drain acc = MainLoop.drain (acc.drop 1)
  | b :: bs, h, _ => by
      rw [MainLoop.drain_eq, MainLoop.drain_eq, codec.drain_congr (codec.next_of_resync h)]
      rfl

/-- What the rest of the turn passes on, and the locals it leaves; at its top and at the
swap nothing has been decided yet. -/
def Rx.rest (s : Rx) : List Dispatch × MainLoop.Loop :=
  match s.pc with
  | .receive | .swap => ([], { acc := s.acc, idle := s.idle })
  | .clear => ([], { acc := [], idle := 0 })
  | .drain => ([], { acc := s.acc, idle := 0 })
  | .append =>
      MainLoop.turn { acc := s.acc, idle := s.idle }
        { got := s.chunk, overflowed := false, capturing := s.capturing }
  | .limit =>
      if s.acc.length > maxFrame then ([], { acc := [], idle := s.idle })
      else ((MainLoop.drain s.acc).1, { acc := (MainLoop.drain s.acc).2, idle := s.idle })
  | .decode => ((MainLoop.drain s.acc).1, { acc := (MainLoop.drain s.acc).2, idle := s.idle })
  | .consume used =>
      ((MainLoop.drain (s.acc.drop used)).1,
        { acc := (MainLoop.drain (s.acc.drop used)).2, idle := s.idle })

/-- The interrupt changes nothing that the turn has still to do. -/
theorem rest_rxCallback (packet : List UInt8) (s : Rx) : (s.rxCallback packet).rest = s.rest := by
  obtain ⟨stream, overflowed, heq, -⟩ := rxCallback_cases packet s
  rw [heq]
  rfl

/-- A step of the loop does its share of the turn. -/
theorem rest_main {s s' : Rx} {es : List Event} {running capturing : Bool}
    (hpc : s.pc ≠ .receive ∧ s.pc ≠ .swap) (hs : s.main running capturing = some (s', es)) :
    s.rest = (passedOn es ++ s'.rest.1, s'.rest.2) := by
  unfold Rx.main at hs
  dsimp only at hs
  split at hs
  · rename_i h
    exact absurd h hpc.1
  · rename_i h
    exact absurd h hpc.2
  · -- clear
    rename_i h
    cases hs
    rw [Rx.rest, h]
    rfl
  · -- drain
    rename_i h
    split_ifs at hs
    · cases hs
      rw [Rx.rest, h]
      rfl
    · cases hs
      rw [Rx.rest, Rx.rest, h]
      rfl
  · -- append
    rename_i h
    rw [Rx.rest, h]
    dsimp only
    rw [MainLoop.turn, if_neg Bool.false_ne_true]
    by_cases hempty : s.chunk.length = 0
    · rw [if_pos hempty] at hs
      cases hs
      rw [if_pos hempty]
      cases s.capturing <;> rfl
    · rw [if_neg hempty] at hs
      cases hs
      rw [if_neg hempty]
      rfl
  · -- limit
    rename_i h
    rw [Rx.rest, h]
    dsimp only
    by_cases hlong : s.acc.length > maxFrame
    · rw [if_pos hlong] at hs
      cases hs
      rw [if_pos hlong]
      rfl
    · rw [if_neg hlong] at hs
      cases hs
      rw [if_neg hlong]
      rfl
  · -- decode
    rename_i h
    rw [Rx.rest, h]
    dsimp only
    split at hs
    · rename_i f used hd
      cases hs
      rw [drain_of_frame hd]
      rfl
    · rename_i hd
      cases hs
      rw [drain_of_needMore hd]
      rfl
    · rename_i hd
      split_ifs at hs with hempty
      · cases hs
        rw [List.isEmpty_iff.mp hempty]
        rfl
      · cases hs
        rw [drain_of_resync hd (Bool.eq_false_iff.mpr hempty), Rx.rest, h]
        rfl
  · -- consume
    rename_i h
    cases hs
    rw [Rx.rest, h]
    rfl

/-- Until the loop is back at the top, the interrupt and the loop together do what was
left of the turn. -/
theorem rest_run : ∀ {ls : List Label} {s s' : Rx} {es : List Event},
    machine.run s ls = some (s', es) →
    machine.Guarded (fun s _ => s.pc ≠ .receive ∧ s.pc ≠ .swap) s ls →
    s.rest = (passedOn es ++ s'.rest.1, s'.rest.2)
  | [], _, _, _, h, _ => by
      cases h
      rfl
  | l :: ls, s, s', es, h, hG => by
      obtain ⟨s₁, es₁, es₂, hs, hr, rfl⟩ := Machine.run_cons h
      obtain ⟨hpc, hG⟩ := hG
      rw [hs] at hG
      have hfirst : s.rest = (passedOn es₁ ++ s₁.rest.1, s₁.rest.2) := by
        cases l with
        | rxCallback packet =>
            simp only [machine, step] at hs
            split_ifs at hs
            cases hs
            rw [rest_rxCallback]
            rfl
        | main running capturing => exact rest_main hpc hs
      rw [hfirst, rest_run hr hG, passedOn_append, List.append_assoc]

/-- The steps of a turn come to `MainLoop.turn`, on the bytes received and the flag as the
swap found it, wherever the interrupt ran in between. -/
theorem turn_of_steps {s s₁ s' : Rx} {running capturing : Bool} {ls : List Label}
    {es es' : List Event} (hpc : s.pc = .swap)
    (hs : s.main running capturing = some (s₁, es))
    (hrun : machine.run s₁ ls = some (s', es'))
    (hturn : machine.Guarded (fun s _ => s.pc ≠ .receive ∧ s.pc ≠ .swap) s₁ ls)
    (hend : s'.pc = .receive) :
    MainLoop.turn { acc := s.acc, idle := s.idle }
        { got := s.chunk, overflowed := s.overflowed, capturing }
      = (passedOn es', { acc := s'.acc, idle := s'.idle }) := by
  have hrest := rest_run hrun hturn
  have hdone : s'.rest = ([], { acc := s'.acc, idle := s'.idle }) := by
    rw [Rx.rest, hend]
  rw [hdone, List.append_nil] at hrest
  rw [← hrest]
  simp only [Rx.main, hpc] at hs
  split_ifs at hs with hflag
  · cases hs
    rw [hflag]
    rfl
  · cases hs
    rw [Bool.eq_false_iff.mpr hflag]
    rfl

end FlipLink.RxStream

/-
# `FlipLink.Client.SubghzCapture` — capturing a Sub-GHz signal

`subghz_capture` of `lib.rs`, with `expect_subghz_stream_start` and
`drain_subghz_capture_stop`: three loops around `next_frame`, and the send of the
STREAM_STOP between the second and the third.  A turn of any of them is one step,
and what the turn finds (what `cancel` and `next_frame` return, whether the time
that the turn looks at is up) comes with it; so every run of the machine is a run
of the function in some surroundings.  The decoders of the bodies are the
parameter `b`.  The events of a run are the STREAM_DATA payloads it has read.

The signal returned has the edges of these payloads (`run_ok`).  A payload is
`Storable` if the file parser admits all its edges (`admitted_streamEdges`);
`decode_stream_data` takes any duration but 0.
-/
import FlipLink.Client.Subghz
import FlipLink.Lib.Machine

namespace FlipLink

open Lib

namespace SubghzCapture

/-! ## Frames -/

/-- `from_payload` at the types that a capture decodes: the format of a STREAM_START,
the count of a STREAM_STOP, the code and message of an ERROR. -/
structure Bodies where
  streamStart : List UInt8 → Except String String
  streamStop : List UInt8 → Except String UInt32
  agentError : List UInt8 → Except String (UInt32 × String)

section Frames

variable (b : Bodies)

def decodeAgentError (payload : List UInt8) : String :=
  match b.agentError payload with
  | .ok (code, message) => "device error " ++ toString code.toNat ++ ": " ++ message
  | .error e => "decode ERROR: " ++ e

def validateStreamStart (typ : MsgType) (payload : List UInt8) : Except String Unit :=
  match typ with
  | .streamStart =>
      match b.streamStart payload with
      | .ok format =>
          if format = streamFormatSubghzLevelDurationV1 then .ok ()
          else .error ("unsupported Sub-GHz capture stream format " ++ format ++ " (expected " ++
            streamFormatSubghzLevelDurationV1 ++ ")")
      | .error e => .error ("decode STREAM_START: " ++ e)
  | .error => .error (decodeAgentError b payload)
  | other => .error ("expected STREAM_START, got " ++ other.debug)

def handleStreamStop (label : String) (payload : List UInt8) : Except String Unit :=
  match b.streamStop payload with
  | .ok dropped =>
      if dropped > 0 then
        .error (label ++ " capture dropped " ++ toString dropped.toNat ++
          " samples (buffer overflow)")
      else .ok ()
  | .error e => .error ("decode STREAM_STOP: " ++ e)

end Frames

/-! ## The loops -/

/-- Where `subghz_capture` is. -/
inductive Phase where
  /-- In `open_stream`. -/
  | opening
  /-- In `expect_subghz_stream_start`. -/
  | starting
  /-- In the loop that reads the stream. -/
  | capturing (edges : List SubGhzEdge)
  /-- Sending the STREAM_STOP. -/
  | stopping (edges : List SubGhzEdge)
  /-- In `drain_subghz_capture_stop`. -/
  | draining (edges : List SubGhzEdge)
  | done (r : Except String SubGhzSignal)

/-- What a turn of a loop finds. -/
structure Turn where
  /-- What `cancel` returns, where it is asked. -/
  cancel : Bool
  /-- What `next_frame` returns. -/
  got : Except String (Option (MsgType × List UInt8))
  /-- The deadline of the loop has passed, or the idle gap. -/
  elapsed : Bool

inductive Input where
  /-- `open_stream` returns. -/
  | opened (r : Except String Unit)
  | turn (t : Turn)
  /-- The send of the STREAM_STOP returns. -/
  | sent (r : Except String Unit)

section Loops

variable (b : Bodies) (frequency : UInt32) (preset : SubGhzPreset)

/-- The end of `subghz_capture`. -/
def finish (edges : List SubGhzEdge) : Except String SubGhzSignal :=
  if edges.isEmpty then .error "no Sub-GHz signal captured"
  else .ok { frequency, preset, edges }

/-- A turn of `expect_subghz_stream_start`. -/
def startTurn (t : Turn) : Phase :=
  match t.got with
  | .error e => .done (.error e)
  | .ok (some (typ, payload)) =>
      match validateStreamStart b typ payload with
      | .ok () => .capturing []
      | .error e => .done (.error e)
  | .ok none =>
      if t.elapsed then .done (.error "timed out waiting for Sub-GHz capture stream start")
      else .starting

/-- The idle gap, looked at at the end of a turn. -/
def afterTurn (edges : List SubGhzEdge) (t : Turn) : Phase :=
  if !edges.isEmpty && t.elapsed then .stopping edges else .capturing edges

/-- A turn of the loop that reads the stream. -/
def captureTurn (edges : List SubGhzEdge) (t : Turn) : Phase × List (List UInt8) :=
  if t.cancel then (.stopping edges, [])
  else
    match t.got with
    | .error e => (.done (.error e), [])
    | .ok (some (.streamData, payload)) =>
        (afterTurn (SubGhzSignal.decodeStreamData payload edges).1 t, [payload])
    | .ok (some (.streamStop, payload)) =>
        match handleStreamStop b "Sub-GHz" payload with
        | .ok () => (.done (finish frequency preset edges), [])
        | .error e => (.done (.error e), [])
    | .ok (some (.error, payload)) => (.done (.error (decodeAgentError b payload)), [])
    | .ok (some (other, _)) =>
        (.done (.error ("unexpected frame during Sub-GHz capture: " ++ other.debug)), [])
    | .ok none => (afterTurn edges t, [])

/-- The deadline, looked at at the end of a turn. -/
def afterDrain (edges : List SubGhzEdge) (t : Turn) : Phase :=
  if t.elapsed then .done (.error "timed out waiting for Sub-GHz capture stop")
  else .draining edges

/-- A turn of `drain_subghz_capture_stop`. -/
def drainTurn (edges : List SubGhzEdge) (t : Turn) : Phase × List (List UInt8) :=
  match t.got with
  | .error e => (.done (.error e), [])
  | .ok (some (.streamData, payload)) =>
      (afterDrain (SubGhzSignal.decodeStreamData payload edges).1 t, [payload])
  | .ok (some (.streamStop, payload)) =>
      match handleStreamStop b "Sub-GHz" payload with
      | .ok () => (.done (finish frequency preset edges), [])
      | .error e => (.done (.error e), [])
  | .ok (some (.error, payload)) => (.done (.error (decodeAgentError b payload)), [])
  | .ok (some (other, _)) =>
      (.done (.error ("unexpected frame while stopping Sub-GHz capture: " ++ other.debug)), [])
  | .ok none => (afterDrain edges t, [])

def step : Phase → Input → Option (Phase × List (List UInt8))
  | .opening, .opened (.ok ()) => some (.starting, [])
  | .opening, .opened (.error e) => some (.done (.error e), [])
  | .starting, .turn t => some (startTurn b t, [])
  | .capturing edges, .turn t => some (captureTurn b frequency preset edges t)
  | .stopping edges, .sent (.ok ()) => some (.draining edges, [])
  | .stopping _, .sent (.error e) => some (.done (.error e), [])
  | .draining edges, .turn t => some (drainTurn b frequency preset edges t)
  | _, _ => none

/-- `subghz_capture`; the events are the STREAM_DATA payloads read. -/
def machine : Machine Phase Input (List UInt8) where
  step := step b frequency preset

end Loops

/-! ## What is returned -/

variable {b : Bodies} {frequency : UInt32} {preset : SubGhzPreset}

/-- The edges held are those of the payloads read. -/
def Holds (frequency : UInt32) (preset : SubGhzPreset) (payloads : List (List UInt8)) :
    Phase → Prop
  | .opening | .starting => payloads = []
  | .capturing edges | .stopping edges | .draining edges =>
      edges = payloads.flatMap SubGhzSignal.streamEdges
  | .done (.ok signal) =>
      signal = { frequency, preset, edges := payloads.flatMap SubGhzSignal.streamEdges } ∧
        signal.edges ≠ []
  | .done (.error _) => True

theorem holds_finish {payloads : List (List UInt8)} {edges : List SubGhzEdge}
    (h : edges = payloads.flatMap SubGhzSignal.streamEdges) :
    Holds frequency preset payloads (.done (finish frequency preset edges)) := by
  unfold finish
  split_ifs with hempty
  · trivial
  · rw [List.isEmpty_iff] at hempty
    exact ⟨by rw [h], hempty⟩

theorem flatMap_concat {payloads : List (List UInt8)} {edges : List SubGhzEdge}
    (h : edges = payloads.flatMap SubGhzSignal.streamEdges) (payload : List UInt8) :
    (SubGhzSignal.decodeStreamData payload edges).1
      = (payloads ++ [payload]).flatMap SubGhzSignal.streamEdges := by
  rw [List.flatMap_append, List.flatMap_singleton, ← h]
  rfl

theorem holds_afterTurn {payloads : List (List UInt8)} {edges : List SubGhzEdge}
    (h : edges = payloads.flatMap SubGhzSignal.streamEdges) (t : Turn) :
    Holds frequency preset payloads (afterTurn edges t) := by
  unfold afterTurn
  split_ifs <;> exact h

theorem holds_afterDrain {payloads : List (List UInt8)} {edges : List SubGhzEdge}
    (h : edges = payloads.flatMap SubGhzSignal.streamEdges) (t : Turn) :
    Holds frequency preset payloads (afterDrain edges t) := by
  unfold afterDrain
  split_ifs
  · trivial
  · exact h

theorem holds_captureTurn {payloads : List (List UInt8)} {edges : List SubGhzEdge}
    (h : edges = payloads.flatMap SubGhzSignal.streamEdges) (t : Turn) :
    Holds frequency preset (payloads ++ (captureTurn b frequency preset edges t).2)
      (captureTurn b frequency preset edges t).1 := by
  unfold captureTurn
  split_ifs
  · rw [List.append_nil]
    exact h
  · split
    · trivial
    · exact holds_afterTurn (flatMap_concat h _) t
    · split
      · rw [List.append_nil]
        exact holds_finish h
      · trivial
    · trivial
    · trivial
    · rw [List.append_nil]
      exact holds_afterTurn h t

theorem holds_drainTurn {payloads : List (List UInt8)} {edges : List SubGhzEdge}
    (h : edges = payloads.flatMap SubGhzSignal.streamEdges) (t : Turn) :
    Holds frequency preset (payloads ++ (drainTurn b frequency preset edges t).2)
      (drainTurn b frequency preset edges t).1 := by
  unfold drainTurn
  split
  · trivial
  · exact holds_afterDrain (flatMap_concat h _) t
  · split
    · rw [List.append_nil]
      exact holds_finish h
    · trivial
  · trivial
  · trivial
  · rw [List.append_nil]
    exact holds_afterDrain h t

theorem holds_startTurn (t : Turn) : Holds frequency preset [] (startTurn b t) := by
  unfold startTurn
  split
  · trivial
  · split
    · rfl
    · trivial
  · split_ifs
    · trivial
    · rfl

theorem Holds.step {payloads payloads' : List (List UInt8)} {s s' : Phase} {i : Input}
    (h : Holds frequency preset payloads s)
    (hs : step b frequency preset s i = some (s', payloads')) :
    Holds frequency preset (payloads ++ payloads') s' := by
  unfold SubghzCapture.step at hs
  split at hs
  -- `open_stream`
  · cases hs
    rw [List.append_nil]
    exact h
  · cases hs
    trivial
  -- the start
  · cases hs
    obtain rfl : payloads = [] := h
    exact holds_startTurn _
  -- the stream, its stop, and what comes before the device confirms it
  · obtain ⟨rfl, rfl⟩ := Prod.ext_iff.mp (Option.some.inj hs)
    exact holds_captureTurn h _
  · cases hs
    rw [List.append_nil]
    exact h
  · cases hs
    trivial
  · obtain ⟨rfl, rfl⟩ := Prod.ext_iff.mp (Option.some.inj hs)
    exact holds_drainTurn h _
  · exact nomatch hs

/-- The signal returned has the edges of the payloads read. -/
theorem run_ok {is : List Input} {signal : SubGhzSignal} {payloads : List (List UInt8)}
    (hrun : (machine b frequency preset).run .opening is = some (.done (.ok signal), payloads)) :
    signal.edges = payloads.flatMap SubGhzSignal.streamEdges ∧ signal.edges ≠ [] := by
  have hholds : Holds frequency preset payloads (.done (.ok signal)) :=
    Machine.run_events (P := fun s es => Holds frequency preset es s)
      (fun h hs => h.step hs) (show Holds frequency preset [] .opening from rfl) hrun
  obtain ⟨rfl, hne⟩ := hholds
  exact ⟨rfl, hne⟩

/-! ## Whether it can be stored -/

/-- The duration in a 5-byte record. -/
def recordDuration (record : List UInt8) : UInt32 := ofLe32 (record.drop 1)

/-- No record of the payload is longer than what can be stored. -/
def Storable (payload : List UInt8) : Prop :=
  ∀ record ∈ chunksExact 5 payload, recordDuration record ≤ maxSubghzDurationUs

instance (payload : List UInt8) : Decidable (Storable payload) :=
  inferInstanceAs (Decidable (∀ record ∈ _, _))

theorem length_chunksN {α : Type} {r : Nat} : ∀ (n : Nat) {l : List α}, r * n ≤ l.length →
    ∀ x ∈ chunksN r n l, x.length = r
  | 0, _, _ => nofun
  | n + 1, l, h => by
      rw [Nat.mul_succ] at h
      refine List.forall_mem_cons.mpr ⟨List.length_take_of_le (by omega), ?_⟩
      exact length_chunksN n (by rw [List.length_drop]; omega)

theorem length_chunksExact {α : Type} {r : Nat} (l : List α) :
    ∀ x ∈ chunksExact r l, x.length = r :=
  length_chunksN _ (Nat.mul_div_le _ _)

theorem recordEdge_eq {record : List UInt8} (h : record.length = 5) :
    ∃ level, SubGhzSignal.recordEdge record
      = if recordDuration record > 0 then some { level, durationUs := recordDuration record }
        else none := by
  match record, h with
  | [b0, b1, b2, b3, b4], _ => exact ⟨b0 ≠ 0, rfl⟩

/-- The edges of a payload are admitted exactly if its records are storable. -/
theorem admitted_streamEdges (payload : List UInt8) :
    (∀ e ∈ SubGhzSignal.streamEdges payload, SubGhzSignal.Admitted e) ↔ Storable payload := by
  constructor
  · intro h record hrecord
    obtain ⟨level, hedge⟩ := recordEdge_eq (length_chunksExact payload record hrecord)
    by_cases hpos : recordDuration record > 0
    · rw [if_pos hpos] at hedge
      exact (h _ (List.mem_filterMap.mpr ⟨record, hrecord, hedge⟩)).2
    · rw [UInt32.not_lt.mp hpos |> UInt32.le_zero_iff.mp]
      exact UInt32.zero_le
  · intro h e he
    obtain ⟨record, hrecord, heq⟩ := List.mem_filterMap.mp he
    obtain ⟨level, hedge⟩ := recordEdge_eq (length_chunksExact payload record hrecord)
    rw [hedge] at heq
    split_ifs at heq with hpos
    obtain rfl := Option.some.inj heq
    exact ⟨(UInt32.ne_of_lt hpos).symm, h record hrecord⟩

end SubghzCapture

end FlipLink

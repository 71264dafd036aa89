/-
# `FlipLink.Firmware.SubghzInstrument` — Sub-GHz capture

The capture of `subghz_instrument.rs` is the common machinery at 5-byte records
(a level byte and a little-endian `u32`), a buffer of 8192 bytes and batches of
250.  An edge of no duration is left alone.

8192 is 1638 records and two bytes.  An ISR call that finds room for those two
bytes only writes them, counts its record as dropped, and leaves a torn record
behind.  Nothing is wrong yet: if the buffer is read to its end before it is
written to again, the reader drops the two bytes.  The next record to be written
behind them is what breaks the stream (`subghz_capture_torn`), and it is the
only thing that does (`subghz_capture_accounts`): while no ISR call finds a torn
record with room behind it, every record is delivered whole or counted.
-/
import FlipLink.Firmware.Capture

namespace FlipLink.Subghz

open Lib Capture

def captureCap : Nat := 8192
def edgeRecordSize : Nat := 5

/-- The bytes that `rx_capture_isr` sends for an edge. -/
def edgeRecord (e : Edge) : List UInt8 := (if e.level then 1 else 0) :: le32 e.duration

/-- Sub-GHz capture's share of the common machinery. -/
def config : CaptureConfig where
  cap := captureCap
  recordSize := edgeRecordSize
  batchSize := 250
  record e := if e.duration = 0 then none else some (edgeRecord e)
  recordSize_pos := by decide
  batchSize_pos := by decide
  recordSize_dvd := by decide
  length_record h := by
    split_ifs at h
    obtain rfl := Option.some.inj h
    exact congrArg Nat.succ (length_le32 _)

theorem record_of_ne {e : Edge} (h : e.duration ≠ 0) : config.record e = some (edgeRecord e) :=
  if_neg h

def rxCaptureIsr (c : Capture config) (level : Bool) (duration : UInt32) :
    Capture config × List Event :=
  c.rxCaptureIsr { level, duration }

def captureActive (c : Capture config) : Bool := c.active

/-! ## `start_capture` -/

inductive Preset where
  | ook270 | ook650 | fsk2Dev238 | fsk2Dev476 | msk99_97 | gfsk9_99
  deriving DecidableEq, Repr

def asU64 : Value → Option UInt64
  | .u64 n => some n
  | .i64 n => if 0 ≤ n.toInt then some n.toUInt64 else none
  | _ => none

def requiredFrequency (params : Value) : Except (UInt32 × String) UInt32 :=
  match (params.get "frequency").bind asU64 with
  | some n => .ok n.toUInt32
  | none => .error (errBadParams, "frequency required")

def presetByName (name : String) : Except (UInt32 × String) Preset :=
  match name with
  | "ook270" => .ok .ook270
  | "ook650" => .ok .ook650
  | "2fsk_dev238" => .ok .fsk2Dev238
  | "2fsk_dev476" => .ok .fsk2Dev476
  | "msk99_97" => .ok .msk99_97
  | "gfsk9_99" => .ok .gfsk9_99
  | _ => .error (errBadParams, "unknown subghz preset")

def requiredPreset (params : Value) : Except (UInt32 × String) Preset :=
  match params.get "preset" with
  | some (.text name) => presetByName name
  | _ => .error (errBadParams, "preset required")

/-- What `start_capture` learns from the system. -/
structure Hal where
  /-- `internal_device` is not null. -/
  device : Bool
  /-- `subghz_devices_is_frequency_valid`. -/
  frequencyValid : UInt32 → Bool
  /-- `subghz_devices_begin`. -/
  begin : Bool
  /-- An allocation succeeds. -/
  alloc : Bool

def startCapture (hal : Hal) (seq : UInt16) (params : Value) (c : Capture config) :
    Capture config × List Sent :=
  if c.active then (c, [.error seq errBusy "subghz busy"])
  else
    match requiredFrequency params with
    | .error (code, message) => (c, [.error seq code message])
    | .ok frequency =>
    match requiredPreset params with
    | .error (code, message) => (c, [.error seq code message])
    | .ok _ =>
    if !hal.device then (c, [.error seq errInternal "subghz internal device unavailable"])
    else if !hal.frequencyValid frequency then
      (c, [.error seq errBadParams "invalid subghz frequency"])
    else if !hal.begin then (c, [.error seq errBusy "subghz device unavailable"])
    else
      match c.ensureCaptureBuffer hal.alloc with
      | none => (c, [.error seq errInternal "no subghz capture buffer"])
      | some sb => (arm 128 sb seq, [.streamStart seq streamFormatSubghzLevelDurationV1])

def drainCapture (c : Capture config) : Capture config × List Sent := c.drainCapture

def stopCapture (c : Capture config) : Capture config × List Sent := c.stopCapture

/-- A STREAM_START is sent exactly by a start that arms the receiver. -/
theorem startCapture_started {hal : Hal} {seq : UInt16} {params : Value} {c c' : Capture config}
    {format : String} (h : startCapture hal seq params c = (c', [.streamStart seq format])) :
    ∃ sb, c' = arm 128 sb seq := by
  unfold startCapture at h
  by_cases hactive : c.active = true
  · rw [if_pos hactive] at h
    exact nomatch h
  rw [if_neg hactive] at h
  cases hf : requiredFrequency params with
  | error e => rw [hf] at h; exact nomatch h
  | ok f =>
    cases hp : requiredPreset params with
    | error e => rw [hf, hp] at h; exact nomatch h
    | ok preset =>
      rw [hf, hp] at h
      dsimp only at h
      split_ifs at h
      · exact nomatch h
      · exact nomatch h
      · exact nomatch h
      · cases hsb : c.ensureCaptureBuffer hal.alloc with
        | none => rw [hsb] at h; exact nomatch h
        | some sb =>
            rw [hsb] at h
            exact ⟨sb, (Prod.ext_iff.mp h).1.symm⟩

/-- A start that the system grants. -/
def granted : Hal :=
  { device := true, frequencyValid := fun _ => true, begin := true, alloc := true }

def ook433 : Value := .map [("frequency", .u64 433920000), ("preset", .text "ook650")]

theorem startCapture_granted : startCapture granted 7 ook433 initial
    = (arm 128 .empty 7, [.streamStart 7 streamFormatSubghzLevelDurationV1]) :=
  rfl

/-- **Sub-GHz capture in step.**  In a run in which every ISR call finds the
buffer at a whole number of records or full, the ended capture is accounted
for: the payloads joined are the records of the accepted calls, every call with
a duration was accepted or rejected, and the count in STREAM_STOP is the number
of the rejected. -/
theorem subghz_capture_accounts {hal : Hal} {seq : UInt16} {params : Value}
    {c₀ c₁ c : Capture config} {ls : List Label} {es : List Event}
    (hstart : startCapture hal seq params c₀
      = (c₁, [.streamStart seq streamFormatSubghzLevelDurationV1]))
    (hrun : (machine config).run c₁ ls = some (c, es)) (hend : c.rx = false)
    (hstep : (machine config).Guarded InStep c₁ ls) (hlt : (rejected es).length < 2 ^ 32) :
    (payloads es).flatten = records config (accepted es) ∧
    calls es = edges config ls ∧
    ∃ dropped, stops es = [dropped] ∧ dropped.toNat = (rejected es).length := by
  obtain ⟨sb, rfl⟩ := startCapture_started hstart
  have hacc := accounted_of_inv (capture_tracks (inv_arm (by decide) sb seq) hstep hrun) hend
  exact ⟨hacc.payloads_eq, hacc.calls_eq, hacc.stops_eq hlt⟩

/-- Two edges around a drain and one of no duration. -/
theorem subghz_capture_accounts_pulse :
    let es : List Event :=
      [.accepted ⟨true, 500⟩, .sent (.streamData 7 [1, 0xF4, 0x01, 0, 0]), .accepted ⟨false, 300⟩,
        .sent (.streamData 7 [0, 0x2C, 0x01, 0, 0]), .sent (.streamStop 7 0)]
    (machine config).run (startCapture granted 7 ook433 initial).1
        [.isr ⟨true, 500⟩, .drain, .isr ⟨true, 0⟩, .stop, .isr ⟨false, 300⟩, .stopped]
      = some ({ stream := some .empty, active := false, seq := 7, dropped := 0, rx := false }, es) ∧
    (payloads es).flatten = records config (accepted es) ∧
    ∃ dropped, stops es = [dropped] ∧ dropped.toNat = (rejected es).length := by
  intro es
  have hrun : (machine config).run (startCapture granted 7 ook433 initial).1
      [.isr ⟨true, 500⟩, .drain, .isr ⟨true, 0⟩, .stop, .isr ⟨false, 300⟩, .stopped]
      = some ({ stream := some .empty, active := false, seq := 7, dropped := 0, rx := false }, es) :=
    rfl
  have hstep : (machine config).Guarded InStep (startCapture granted 7 ook433 initial).1
      [.isr ⟨true, 500⟩, .drain, .isr ⟨true, 0⟩, .stop, .isr ⟨false, 300⟩, .stopped] :=
    ⟨fun _ => .inl (Nat.dvd_zero _), trivial, fun _ => .inl (Nat.dvd_zero _), trivial,
      fun _ => .inl (Nat.dvd_zero _), trivial, trivial⟩
  have h := subghz_capture_accounts startCapture_granted hrun rfl hstep (by decide)
  exact ⟨hrun, h.1, h.2.2⟩

/-! ## A torn record -/

/-- Calls that the buffer has room for are all accepted. -/
theorem run_accepted {e : Edge} (he : e.duration ≠ 0) : ∀ (n : Nat) (c : Capture config)
    (sb : StreamBuffer UInt8 config.cap), c.rx = true → c.stream = some sb →
    sb.items.length + 5 * n ≤ config.cap →
    ∃ sb' : StreamBuffer UInt8 config.cap,
      sb'.items = sb.items ++ (List.replicate n (edgeRecord e)).flatten ∧
      (machine config).run c (List.replicate n (.isr e))
        = some ({ c with stream := some sb' }, List.replicate n (.accepted e))
  | 0, c, sb, _, hsb, _ => ⟨sb, by simp, by rw [← hsb]; rfl⟩
  | n + 1, c, sb, hrx, hsb, hroom => by
      have hfree := sb.free_le
      have hlen := config.length_record (record_of_ne he)
      obtain ⟨hfit, hisr⟩ | ⟨hfit, -⟩ := rxCaptureIsr_cases hsb (record_of_ne he)
      · have hsend : (sb.send (edgeRecord e)).2.items = sb.items ++ edgeRecord e := by
          rw [StreamBuffer.send_items, List.take_of_length_le (hlen ▸ hfit)]
        have hstep : (machine config).step c (.isr e)
            = some ({ c with stream := some (sb.send (edgeRecord e)).2 }, [.accepted e]) := by
          show (if c.rx then some (c.rxCaptureIsr e) else none) = _
          rw [if_pos hrx, hisr]
        obtain ⟨sb', hitems, hrun⟩ := run_accepted he n
          { c with stream := some (sb.send (edgeRecord e)).2 } (sb.send (edgeRecord e)).2 hrx rfl
          (by rw [hsend, List.length_append, hlen]; show _ + 5 + _ ≤ _; omega)
        refine ⟨sb', ?_, ?_⟩
        · rw [hitems, hsend, List.replicate_succ, List.flatten_cons, List.append_assoc]
        · exact Machine.run_step hstep hrun
      · exfalso
        have : config.recordSize = 5 := rfl
        omega

/-- A buffer with room for two bytes: the next call tears its record, a drain
makes room, and the call after that writes behind the torn piece. -/
theorem run_torn {e e' : Edge} (he : e.duration ≠ 0) (he' : e'.duration ≠ 0) (seq : UInt16)
    (sb : StreamBuffer UInt8 config.cap) (hlen : sb.items.length = 8190) :
    ∃ c es, (machine config).run
        { stream := some sb, active := true, seq, dropped := 0, rx := true }
        [.isr e, .drain, .isr e', .stop, .stopped] = some (c, es) ∧
      c.rx = false ∧ accepted es = [e'] ∧ rejected es = [e] ∧
      (payloads es).flatten
        = sb.items ++ wholePart 5 ((edgeRecord e).take 2 ++ edgeRecord e') := by
  have hsize : config.recordSize = 5 := rfl
  have hcap : config.cap = 8192 := rfl
  have hfree : sb.free = 2 := by have := sb.free_le; omega
  -- the torn record
  let c₀ : Capture config := { stream := some sb, active := true, seq, dropped := 0, rx := true }
  let sb₁ := (sb.send (edgeRecord e)).2
  have hsb₁ : sb₁.items = sb.items ++ (edgeRecord e).take 2 := by
    rw [← hfree]; exact StreamBuffer.send_items sb _
  have h₁ : (machine config).step c₀ (.isr e)
      = some ({ c₀ with stream := some sb₁, dropped := 1 }, [.rejected e]) := by
    obtain ⟨hfit, -⟩ | ⟨-, hisr⟩ := rxCaptureIsr_cases (c := c₀) rfl (record_of_ne he)
    · omega
    · exact congrArg some hisr
  -- a batch leaves the buffer
  let c₁ : Capture config := { c₀ with stream := some sb₁, dropped := 1 }
  let sb₂ := (sb₁.receive 250).2
  obtain ⟨hdrain, hdata, -, -⟩ := drainCapture_spec (c := c₁) rfl rfl
  have h₂ : (machine config).step c₁ .drain
      = some ({ c₁ with stream := some sb₂ }, c₁.drainCapture.2.map .sent) := by
    show some (c₁.drainCapture.1, _) = _
    rw [hdrain]
    rfl
  have htake : (sb₁.receive 250).1 = sb.items.take 250 := by
    show sb₁.items.take 250 = _
    rw [hsb₁, List.take_append_of_le_length (by omega)]
  have hdrop : sb₂.items = sb.items.drop 250 ++ (edgeRecord e).take 2 := by
    show sb₁.items.drop 250 = _
    rw [hsb₁, List.drop_append_of_le_length (by omega)]
  have hlen₂ : sb₂.items.length = 7942 := by
    rw [hdrop, List.length_append, List.length_drop, List.length_take,
      config.length_record (record_of_ne he)]
    omega
  -- a record behind the torn one
  let c₂ : Capture config := { c₁ with stream := some sb₂ }
  let sb₃ := (sb₂.send (edgeRecord e')).2
  have hfree₂ : sb₂.free = 250 := by have := sb₂.free_le; omega
  have hsb₃ : sb₃.items = sb.items.drop 250 ++ ((edgeRecord e).take 2 ++ edgeRecord e') := by
    show sb₂.items ++ _ = _
    rw [List.take_of_length_le (by rw [config.length_record (record_of_ne he')]; omega), hdrop,
      List.append_assoc]
  have h₃ : (machine config).step c₂ (.isr e')
      = some ({ c₂ with stream := some sb₃ }, [.accepted e']) := by
    obtain ⟨-, hisr⟩ | ⟨hfit, -⟩ := rxCaptureIsr_cases (c := c₂) rfl (record_of_ne he')
    · exact congrArg some hisr
    · omega
  -- the stop
  let c₃ : Capture config := { c₂ with stream := some sb₃ }
  have h₄ : (machine config).step c₃ .stop = some ({ c₃ with active := false }, []) := rfl
  have h₅ : (machine config).step { c₃ with active := false } .stopped
      = some ({ c₃ with active := false, rx := false, stream := some (flush sb₃).2 },
          ((flush sb₃).1.map (Sent.streamData seq) ++ [Sent.streamStop seq 1]).map .sent) := rfl
  refine ⟨_, _, Machine.run_step h₁ (Machine.run_step h₂ (Machine.run_step h₃
    (Machine.run_step h₄ (Machine.run_step h₅ rfl)))), rfl, ?_, ?_, ?_⟩
  · obtain ⟨ha, -, -⟩ := sent_only c₁.drainCapture.2
    obtain ⟨ha', -, -⟩ := sent_only ((flush sb₃).1.map (.streamData seq) ++ [.streamStop seq 1])
    simp only [accepted_append, ha, ha', List.append_nil, List.nil_append]
    rfl
  · obtain ⟨-, hr, -⟩ := sent_only c₁.drainCapture.2
    obtain ⟨-, hr', -⟩ := sent_only ((flush sb₃).1.map (.streamData seq) ++ [.streamStop seq 1])
    simp only [rejected_append, hr, hr', List.append_nil, List.nil_append]
    rfl
  · have hwhole : wholePart 5 (sb.items.take 250) = sb.items.take 250 :=
      wholePart_of_dvd (by rw [List.length_take_of_le (by omega)]; decide)
    have htail : wholePart 5 sb₃.items
        = sb.items.drop 250 ++ wholePart 5 ((edgeRecord e).take 2 ++ edgeRecord e') := by
      rw [hsb₃, wholePart_append (by rw [List.length_drop, hlen]; decide)]
    have hdata' : (payloads (c₁.drainCapture.2.map .sent)).flatten = sb.items.take 250 := by
      rw [hdata]
      show wholePart 5 (sb₁.receive 250).1 = _
      rw [htake, hwhole]
    have hflush : (flush sb₃).1.flatten
        = sb.items.drop 250 ++ wholePart 5 ((edgeRecord e).take 2 ++ edgeRecord e') := by
      rw [flush_flatten]
      exact htail
    have hrejected : payloads [.rejected e] = [] := rfl
    have haccepted : payloads [.accepted e'] = [] := rfl
    simp only [payloads_append, List.flatten_append, hdata', payloads_streamData, hflush,
      hrejected, haccepted, List.nil_append, List.append_nil]
    rw [← List.append_assoc, List.take_append_drop]

theorem accepted_replicate (e : Edge) : ∀ n, accepted (List.replicate n (.accepted e)) =
      List.replicate n e ∧ rejected (List.replicate n (.accepted e)) = [] ∧
      payloads (List.replicate n (.accepted e)) = []
  | 0 => ⟨rfl, rfl, rfl⟩
  | n + 1 => by
      obtain ⟨ha, hr, hp⟩ := accepted_replicate e n
      exact ⟨congrArg (e :: ·) ha, hr, hp⟩

theorem records_replicate {e : Edge} (he : e.duration ≠ 0) : ∀ n,
    records config (List.replicate n e) = (List.replicate n (edgeRecord e)).flatten
  | 0 => rfl
  | n + 1 => by
      rw [List.replicate_succ, List.replicate_succ, List.flatten_cons, ← records_replicate he n]
      show (config.record e).getD [] ++ _ = _
      rw [record_of_ne he]
      rfl

/-- 1638 edges fill the buffer but for two bytes, the 1639th tears its record, a
drain makes room, and one more edge is written behind the torn record. -/
def tornLabels : List Label :=
  List.replicate 1638 (.isr ⟨true, 100⟩) ++
    [.isr ⟨true, 100⟩, .drain, .isr ⟨false, 200⟩, .stop, .stopped]

/-- On that run one call is counted as dropped, and the payloads are not the
records of the others. -/
theorem subghz_capture_torn :
    ∃ c es, (machine config).run (startCapture granted 7 ook433 initial).1 tornLabels
        = some (c, es) ∧
      c.rx = false ∧ (rejected es).length = 1 ∧
      (payloads es).flatten ≠ records config (accepted es) := by
  have hne : (100 : UInt32) ≠ 0 := by decide
  have hne' : (200 : UInt32) ≠ 0 := by decide
  have hlen := config.length_record (record_of_ne (e := ⟨true, 100⟩) hne)
  rw [startCapture_granted]
  obtain ⟨sb, hsb, hrun⟩ := run_accepted (e := ⟨true, 100⟩) hne 1638
    (arm 128 .empty 7) .empty rfl rfl (by decide)
  rw [StreamBuffer.items_empty, List.nil_append] at hsb
  have hfull : sb.items.length = 8190 := by
    rw [hsb, List.length_flatten, List.map_replicate, List.sum_replicate_nat, hlen]
    rfl
  obtain ⟨c, es, htorn, hrx, hacc, hrej, hpay⟩ :=
    @run_torn ⟨true, 100⟩ ⟨false, 200⟩ hne hne' 7 sb hfull
  obtain ⟨ha, hr, hp⟩ := accepted_replicate ⟨true, 100⟩ 1638
  refine ⟨c, _, Machine.run_append hrun htorn, hrx, ?_, ?_⟩
  · rw [rejected_append, hr, hrej]
    rfl
  · rw [payloads_append, accepted_append, hp, ha, hacc, records_append, records_replicate hne,
      List.nil_append, hpay, hsb]
    intro h
    exact absurd (List.append_cancel_left h) (by decide)

end FlipLink.Subghz

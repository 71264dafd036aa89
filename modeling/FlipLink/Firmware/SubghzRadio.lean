/-
# `FlipLink.Firmware.SubghzRadio` — what the Sub-GHz handlers do to the radio

`transmit`, `link_probe`, `start_capture` and `stop_capture` of
`subghz_instrument.rs` once more, now with the calls that acquire, use and hand
back parts of the HAL: the radio device, asynchronous TX and RX, the worker of
the link probe.  What the HAL answers is a `RadioHal`, and it may answer
anything; the calls are listed in the order in which they are made, with their
answers where the code looks at them.  Here are also the statics that only the
radio uses: `CAPTURE_DEVICE`, and `TX_PTR` with its companions, which `tx_yield`
walks.

What `start_capture` and `stop_capture` do to the capture's own statics is in
`FlipLink.Firmware.SubghzInstrument`; here is the radio's share, and it takes the
same branches (`start_cases`).
-/
import FlipLink.Firmware.Device
import FlipLink.Firmware.SubghzParams

namespace FlipLink.Subghz

open Lib

/-! ## The HAL -/

/-- What the HAL answers. -/
structure RadioHal extends Hal where
  /-- `furi_hal_subghz_start_async_tx`. -/
  startAsyncTx : Bool
  /-- `furi_hal_subghz_is_async_tx_complete`, `n` ms after the start. -/
  txComplete : Nat → Bool
  /-- The calls of `tx_yield` between start and stop. -/
  yielded : Nat
  /-- `furi_hal_region_is_frequency_allowed`. -/
  regionAllowed : UInt32 → Bool
  /-- `subghz_tx_rx_worker_alloc` is not null. -/
  workerAlloc : Bool
  workerStart : Bool
  workerWrite : Bool
  /-- `subghz_tx_rx_worker_available`, `n` ms after the start. -/
  workerAvailable : Nat → Nat
  /-- The bytes that `subghz_tx_rx_worker_read` delivers when up to `want` are asked for. -/
  workerRead : (n want : Nat) → List UInt8
  /-- `LINK_PROBE_CALLBACKS` at the end of a probe. -/
  callbacks : UInt32

/-- A call of the HAL. -/
inductive Call where
  -- the device
  | begin (ok : Bool)
  | reset
  | loadPreset (preset : Preset)
  | setFrequency (frequency : UInt32)
  | flushTx
  | setRx
  | flushRx
  | idle
  | sleep
  | end_
  -- asynchronous TX and RX
  | startAsyncTx (ok : Bool)
  | stopAsyncTx
  | startAsyncRx
  | stopAsyncRx
  -- the worker
  | workerAlloc (ok : Bool)
  | workerSetCallback
  | workerStart (ok : Bool)
  | workerWrite
  | workerAvailable
  | workerRead
  | workerStop
  | workerFree
  deriving DecidableEq, Repr

/-! ## What is transmitted -/

/-- The statics of a transmission. -/
structure Tx where
  /-- `TX_PTR`; `none` is the null pointer. -/
  ptr : Option (List TxEdge)
  len : UInt32
  pos : UInt32
  repeat_ : UInt32
  repeatPos : UInt32
  deriving DecidableEq, Repr

/-- The statics at load time. -/
def Tx.initial : Tx := { ptr := none, len := 0, pos := 0, repeat_ := 1, repeatPos := 0 }

/-- The stores of `transmit`. -/
def Tx.publish (edges : List TxEdge) (repeat_ : UInt32) : Tx :=
  { ptr := some edges, len := UInt32.ofNat edges.length, pos := 0, repeat_, repeatPos := 0 }

structure LevelDuration where
  /-- A field of 30 bits. -/
  duration : UInt32
  level : UInt32
  deriving DecidableEq, Repr

def levelDuration (level : Bool) (durationUs : UInt32) : LevelDuration :=
  { duration := durationUs &&& 0x3fffffff, level := if level then 2 else 1 }

def levelDurationReset : LevelDuration := { duration := 0, level := 0 }

/-- `tx_yield`; `none` is a read outside the edges. -/
def txYield (t : Tx) : Option (LevelDuration × Tx) :=
  match t.ptr with
  | none => some (levelDurationReset, t)
  | some edges =>
      if t.len = 0 then some (levelDurationReset, t)
      else if t.repeatPos ≥ t.repeat_ then some (levelDurationReset, t)
      else
        match edges[t.pos.toNat]? with
        | none => none
        | some edge =>
            let nextPos := t.pos + 1
            some (levelDuration edge.level edge.durationUs,
              if nextPos ≥ t.len then { t with pos := 0, repeatPos := t.repeatPos + 1 }
              else { t with pos := nextPos })

/-- `n` calls of `tx_yield`. -/
def txYields : Nat → Tx → Option (List LevelDuration × Tx)
  | 0, t => some ([], t)
  | n + 1, t => do
      let (y, t) ← txYield t
      let (ys, t) ← txYields n t
      return (y :: ys, t)

/-- A `u64` operation that saturates. -/
def saturate (n : Nat) : Nat := min n (2 ^ 64 - 1)

/-- `total_us`. -/
def totalUs (edges : List TxEdge) (repeat_ : UInt32) : Nat :=
  saturate (edges.foldl (fun acc edge => saturate (acc + edge.durationUs.toNat)) 0 * repeat_.toNat)

/-- `timeout_ms` of the transmit loop. -/
def txTimeoutMs (edges : List TxEdge) (repeat_ : UInt32) : Nat :=
  min (saturate (totalUs edges repeat_ / 1000 + 1000)) 60000

/-- The wait for the end of a transmission, with `left` ms to go: `waited_ms` behind it. -/
def waitTx (complete : Nat → Bool) : (left waited : Nat) → Nat
  | 0, waited => waited
  | left + 1, waited => if complete waited then waited else waitTx complete left (waited + 1)

/-! ## The handlers -/

/-- The statics of the radio. -/
structure Radio where
  /-- `CAPTURE_DEVICE` is not null. -/
  captureDevice : Bool
  tx : Tx
  deriving DecidableEq, Repr

def Radio.initial : Radio := { captureDevice := false, tx := .initial }

/-- What a handler leaves, the calls it has made, and what it returns. -/
structure Ran (α : Type) where
  radio : Radio
  calls : List Call
  result : α

/-- Idle, sleep, end. -/
def handBack : List Call := [.idle, .sleep, .end_]

/-- `transmit`; `active` is `CAPTURE_ACTIVE`. -/
def transmit (hal : RadioHal) (active : Bool) (params : Value) (r : Radio) : Ran HandlerResult :=
  if active || r.tx.ptr.isSome then ⟨r, [], .error (errBusy, "subghz busy")⟩
  else
    match requiredFrequency params with
    | .error e => ⟨r, [], .error e⟩
    | .ok frequency =>
    match requiredPreset params with
    | .error e => ⟨r, [], .error e⟩
    | .ok preset =>
    match parseEdges params with
    | .error e => ⟨r, [], .error e⟩
    | .ok edges =>
    match repeatCount params with
    | .error e => ⟨r, [], .error e⟩
    | .ok repeat_ =>
    if !hal.device then ⟨r, [], .error (errInternal, "subghz internal device unavailable")⟩
    else if !hal.frequencyValid frequency then
      ⟨r, [], .error (errBadParams, "invalid subghz frequency")⟩
    else if !hal.begin then ⟨r, [.begin false], .error (errBusy, "subghz device unavailable")⟩
    else
      let tx := Tx.publish edges repeat_
      let prepare := [.begin true, .reset, .loadPreset preset, .setFrequency frequency, .flushTx]
      if !hal.startAsyncTx then
        ⟨{ r with tx := { tx with ptr := none } }, prepare ++ .startAsyncTx false :: handBack,
          .error (errBadParams, "subghz transmit not allowed on this frequency")⟩
      else
        let timeoutMs := txTimeoutMs edges repeat_
        let waitedMs := waitTx hal.txComplete timeoutMs 0
        let tx := ((txYields hal.yielded tx).map Prod.snd).getD tx
        ⟨{ r with tx := { tx with ptr := none } },
          prepare ++ .startAsyncTx true :: .stopAsyncTx :: handBack,
          if waitedMs ≥ timeoutMs then .error (errInternal, "subghz transmit timeout")
          else .ok (.map [("sent", .u64 (.ofNat (saturate (edges.length * repeat_.toNat))))])⟩

/-- The locals of the loop of `link_probe`. -/
structure Probe where
  readTotal : Nat
  rxPreview : List UInt8
  deriving DecidableEq, Repr

/-- A turn of the loop of `link_probe`. -/
def probeTurn (hal : RadioHal) (waited : Nat) (p : Probe) : Probe × List Call :=
  let available := hal.workerAvailable waited
  if available > 0 then
    let got := hal.workerRead waited (min available maxLinkProbeBytes)
    ({ readTotal := saturate (p.readTotal + got.length)
       rxPreview := p.rxPreview ++ got.take (maxLinkProbeBytes - p.rxPreview.length) },
      [.workerAvailable, .workerRead])
  else (p, [.workerAvailable])

/-- The loop of `link_probe`, with `left` ms to go. -/
def probeLoop (hal : RadioHal) : (left waited : Nat) → Probe → Probe × List Call
  | 0, _, p => (p, [])
  | left + 1, waited, p =>
      let t := probeTurn hal waited p
      let rest := probeLoop hal left (waited + 1) t.1
      (rest.1, t.2 ++ rest.2)

/-- `link_probe`. -/
def linkProbe (hal : RadioHal) (active : Bool) (params : Value) (r : Radio) : Ran HandlerResult :=
  if active || r.tx.ptr.isSome then ⟨r, [], .error (errBusy, "subghz busy")⟩
  else
    match requiredFrequency params with
    | .error e => ⟨r, [], .error e⟩
    | .ok frequency =>
    match probePayload params with
    | .error e => ⟨r, [], .error e⟩
    | .ok payload =>
    match probeTimeoutMs params with
    | .error e => ⟨r, [], .error e⟩
    | .ok timeoutMs =>
    if !hal.device then ⟨r, [], .error (errInternal, "subghz internal device unavailable")⟩
    else if !hal.frequencyValid frequency then
      ⟨r, [], .error (errBadParams, "invalid subghz frequency")⟩
    else if !hal.regionAllowed frequency then
      ⟨r, [], .error (errBadParams, "subghz link probe not allowed on this frequency")⟩
    else if !hal.workerAlloc then
      ⟨r, [.workerAlloc false], .error (errInternal, "subghz worker allocation failed")⟩
    else
      let prepare := [.workerAlloc true, .workerSetCallback]
      if !hal.workerStart then
        ⟨r, prepare ++ [.workerStart false, .workerFree],
          .error (errBusy, "subghz link worker unavailable")⟩
      else
        let loop := probeLoop hal timeoutMs.toNat 0 { readTotal := 0, rxPreview := [] }
        ⟨r, prepare ++ .workerStart true :: .workerWrite :: loop.2 ++ [.workerStop, .workerFree],
          if !hal.workerWrite then .error (errInternal, "subghz link worker write failed")
          else .ok (.map [("written", .u64 (.ofNat payload.length)),
            ("read", .u64 (.ofNat loop.1.readTotal)), ("callbacks", .u64 hal.callbacks.toUInt64),
            ("rx_preview", .bytes loop.1.rxPreview)])⟩

/-- The radio's share of `start_capture`. -/
def startRadio (hal : RadioHal) (params : Value) (c : Capture config) (r : Radio) :
    Radio × List Call :=
  if c.active then (r, [])
  else
    match requiredFrequency params with
    | .error _ => (r, [])
    | .ok frequency =>
    match requiredPreset params with
    | .error _ => (r, [])
    | .ok preset =>
    if !hal.device then (r, [])
    else if !hal.frequencyValid frequency then (r, [])
    else if !hal.begin then (r, [.begin false])
    else
      match c.ensureCaptureBuffer hal.alloc with
      | none => (r, [.begin true, .end_])
      | some _ =>
          ({ r with captureDevice := true },
            [.begin true, .reset, .loadPreset preset, .setFrequency frequency, .setRx, .flushRx,
              .startAsyncRx])

/-- The radio's share of `stop_capture`. -/
def stopRadio (c : Capture config) (r : Radio) : Radio × List Call :=
  if c.active then
    ({ r with captureDevice := false },
      .stopAsyncRx :: if r.captureDevice then handBack else [])
  else (r, [])

/-- `start_capture` and the radio's share of it: a refusal leaves the statics alone,
and a begun device is ended again; or both are the capture's, and the radio is tuned as
the parameters say. -/
theorem start_cases (hal : RadioHal) (seq : UInt16) (params : Value) (c : Capture config)
    (r : Radio) :
    ((startCapture hal.toHal seq params c).1 = c ∧ (startRadio hal params c r).1 = r ∧
      ((startRadio hal params c r).2 = [] ∨
        c.active = false ∧ ((startRadio hal params c r).2 = [.begin false] ∨
          (startRadio hal params c r).2 = [.begin true, .end_]))) ∨
    (c.active = false ∧ (startCapture hal.toHal seq params c).1.active = true ∧
      (startRadio hal params c r).1 = { r with captureDevice := true } ∧
      ∃ preset frequency, requiredPreset params = .ok preset ∧
        requiredFrequency params = .ok frequency ∧ (startRadio hal params c r).2
          = [.begin true, .reset, .loadPreset preset, .setFrequency frequency, .setRx, .flushRx,
            .startAsyncRx]) := by
  by_cases hactive : c.active = true
  · left
    rw [startCapture, startRadio, if_pos hactive, if_pos hactive]
    exact ⟨rfl, rfl, .inl rfl⟩
  have hfalse := Bool.eq_false_iff.mpr hactive
  rw [startCapture, startRadio, if_neg hactive, if_neg hactive]
  cases hfrequency : requiredFrequency params with
  | error e => exact .inl ⟨rfl, rfl, .inl rfl⟩
  | ok frequency =>
    cases hpreset : requiredPreset params with
    | error e => exact .inl ⟨rfl, rfl, .inl rfl⟩
    | ok preset =>
      dsimp only
      split_ifs
      · exact .inl ⟨rfl, rfl, .inl rfl⟩
      · exact .inl ⟨rfl, rfl, .inl rfl⟩
      · exact .inl ⟨rfl, rfl, .inr ⟨hfalse, .inl rfl⟩⟩
      · cases c.ensureCaptureBuffer hal.alloc with
        | none => exact .inl ⟨rfl, rfl, .inr ⟨hfalse, .inr rfl⟩⟩
        | some sb => exact .inr ⟨hfalse, rfl, rfl, preset, frequency, rfl, rfl, rfl⟩

end FlipLink.Subghz

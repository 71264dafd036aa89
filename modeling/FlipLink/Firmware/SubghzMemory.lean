/-
# `FlipLink.Firmware.SubghzMemory` — what the Sub-GHz interrupts may touch

As in `Firmware.IrMemory`: `transmit` lends its vector of edges to `tx_yield`, a
capture lends its buffer to `rx_capture_isr`, and `link_probe` has a worker that it
must stop before it frees it.  Unlike `tx_get_data`, `tx_yield` does not compare its
cursor with the length before it reads: that the cursor is within the vector is an
invariant of the two, from where the edges are published to the end of the
transmission.

The calls on the radio that no pointer depends on (reset, preset, frequency, idle,
sleep) are left out; what is asked of the HAL is that the device is begun before it
is used and ended once, and the HAL idle when it is started.
-/
import FlipLink.Firmware.Shell
import FlipLink.Firmware.SubghzRadio

namespace FlipLink.Subghz

open Lib

structure Memory where
  /-- The asynchronous part of the Sub-GHz HAL. -/
  hal : HalState
  /-- The device is begun and not ended. -/
  begun : Bool
  /-- `CAPTURE_ACTIVE`. -/
  active : Bool
  /-- `CAPTURE_DEVICE` is not null. -/
  device : Bool
  /-- `CAPTURE_STREAM` is not null. -/
  stream : Bool
  /-- The local `sb` of `ensure_capture_buffer` is not null. -/
  sb : Bool
  /-- How many capture buffers are allocated. -/
  buffers : Nat
  /-- `TX_PTR` is not null. -/
  txPtr : Bool
  txLen : Nat
  txPos : Nat
  txRepeat : Nat
  txRepeatPos : Nat
  /-- The length of the local `edges` of `transmit`, while there is one. -/
  edges : Option Nat
  /-- The local `worker` of `link_probe`, and whether it runs. -/
  worker : Option Bool

namespace Memory

def initial : Memory where
  hal := .idle
  begun := false
  active := false
  device := false
  stream := false
  sb := false
  buffers := 0
  txPtr := false
  txLen := 0
  txPos := 0
  txRepeat := 1
  txRepeatPos := 0
  edges := none
  worker := none

/-! ## The interrupts -/

inductive Isr where
  | rxCapture
  | txYield
  /-- `link_probe_have_read`. -/
  | haveRead

def Isr.enabled (m : Memory) : Isr → Bool
  | .rxCapture => m.hal == .rx
  | .txYield => m.hal == .tx
  | .haveRead => m.worker == some true

def Isr.handle (m : Memory) : Isr → Option Memory
  | .rxCapture => if m.stream && m.buffers == 0 then none else some m
  | .txYield =>
      if !m.txPtr || m.txLen == 0 then some m
      else if m.txRepeat ≤ m.txRepeatPos then some m
      else if ∃ n ∈ m.edges, m.txPos < n then
        if m.txLen ≤ m.txPos + 1 then
          some { m with txPos := 0, txRepeatPos := m.txRepeatPos + 1 }
        else some { m with txPos := m.txPos + 1 }
      else none
  | .haveRead => some m

def interrupts : Interrupts Memory Isr where
  enabled i m := i.enabled m
  handle i m := i.handle m

/-! ## The operations -/

/-- `parse_edges`: there is at least one edge, or none is parsed. -/
def parse (a : Answer) (m : Memory) : Option Memory :=
  some { m with edges := if 0 < a.count ∧ a.count ≤ maxEdges then some a.count else none }

/-- `transmit` returns. -/
def dropEdges (_ : Answer) (m : Memory) : Option Memory := some { m with edges := none }

def devicesBegin (a : Answer) (m : Memory) : Option Memory :=
  if m.begun then none else some { m with begun := a.yes }

def devicesEnd (_ : Answer) (m : Memory) : Option Memory :=
  if m.begun then some { m with begun := false } else none

def txPtrStore (_ : Answer) (m : Memory) : Option Memory := some { m with txPtr := true }

def txLenStore (_ : Answer) (m : Memory) : Option Memory := some { m with txLen := m.edges.getD 0 }

def txPosStore (_ : Answer) (m : Memory) : Option Memory := some { m with txPos := 0 }

def txRepeatStore (a : Answer) (m : Memory) : Option Memory := some { m with txRepeat := a.count }

def txRepeatPosStore (_ : Answer) (m : Memory) : Option Memory := some { m with txRepeatPos := 0 }

/-- `furi_hal_subghz_start_async_tx`, which may not be allowed. -/
def startAsyncTx (a : Answer) (m : Memory) : Option Memory :=
  if m.begun = true ∧ m.hal = .idle then some (if a.yes then { m with hal := .tx } else m)
  else none

def stopAsyncTx (_ : Answer) (m : Memory) : Option Memory :=
  if m.hal = .tx then some { m with hal := .idle } else none

def txPtrClear (_ : Answer) (m : Memory) : Option Memory := some { m with txPtr := false }

def workerAlloc (a : Answer) (m : Memory) : Option Memory :=
  some { m with worker := if a.yes then some false else none }

def workerStart (a : Answer) (m : Memory) : Option Memory :=
  if m.worker = some false ∧ m.hal = .idle ∧ m.begun = false then
    some { m with worker := some a.yes }
  else none

/-- A `write`, `available` or `read` of the worker. -/
def workerUse (_ : Answer) (m : Memory) : Option Memory :=
  if m.worker = some true then some m else none

def workerStop (_ : Answer) (m : Memory) : Option Memory :=
  if m.worker = some true then some { m with worker := some false } else none

def workerFree (_ : Answer) (m : Memory) : Option Memory :=
  if m.worker = some false then some { m with worker := none } else none

/-- The buffer is allocated, unless there is no room for it. -/
def streamBufferAlloc (a : Answer) (m : Memory) : Option Memory :=
  some { m with sb := a.yes, buffers := if a.yes then m.buffers + 1 else m.buffers }

def captureStreamStore (_ : Answer) (m : Memory) : Option Memory := some { m with stream := m.sb }

/-- A `receive` from the capture buffer. -/
def receive (_ : Answer) (m : Memory) : Option Memory :=
  if m.stream && 0 < m.buffers then some m else none

def captureDeviceStore (device : Bool) (_ : Answer) (m : Memory) : Option Memory :=
  some { m with device }

def captureActiveStore (active : Bool) (_ : Answer) (m : Memory) : Option Memory :=
  some { m with active }

def startAsyncRx (_ : Answer) (m : Memory) : Option Memory :=
  if m.begun = true ∧ m.hal = .idle then some { m with hal := .rx } else none

def stopAsyncRx (_ : Answer) (m : Memory) : Option Memory :=
  if m.hal = .rx then some { m with hal := .idle } else none

/-! ## The programs -/

/-- `transmit`, from where the transmission was started, or was not allowed. -/
def finishTx : Prog Answer Memory :=
  .ite (fun _ m => m.hal != .tx) (.seq (.act txPtrClear) (.act devicesEnd)) <|
  .seq (.loop (fun a _ => a.yes) .skip) <| .seq (.act stopAsyncTx) <|
  .seq (.act devicesEnd) (.act txPtrClear)

/-- `transmit`, from where the device is begun. -/
def play : Prog Answer Memory :=
  .seq (.act txPtrStore) <| .seq (.act txLenStore) <| .seq (.act txPosStore) <|
  .seq (.act txRepeatStore) <| .seq (.act txRepeatPosStore) <| .seq (.act startAsyncTx) finishTx

/-- `transmit`.  The first answer is whether the frequency or the preset is missing; the
second, whether the repeat count, the device or the frequency is refused. -/
def transmit : Prog Answer Memory :=
  .ite (fun _ m => m.active || m.txPtr) .skip <|
  .ite (fun a _ => a.yes) .skip <|
  .seq (.act parse) <|
  .seq
    (.ite (fun _ m => m.edges.isNone) .skip <|
      .ite (fun a _ => a.yes) .skip <|
      .seq (.act devicesBegin) (.ite (fun _ m => !m.begun) .skip play))
    (.act dropEdges)

/-- `link_probe`, from where the worker is allocated. -/
def runWorker : Prog Answer Memory :=
  .seq (.act workerStart) <|
  .ite (fun _ m => m.worker != some true) (.act workerFree) <|
  .seq (.act workerUse) <| .seq (.loop (fun a _ => a.yes) (.act workerUse)) <|
  .seq (.act workerStop) (.act workerFree)

/-- `link_probe`; the first answer is whether the params, the device or the frequency is
refused. -/
def linkProbe : Prog Answer Memory :=
  .ite (fun _ m => m.active || m.txPtr) .skip <|
  .ite (fun a _ => a.yes) .skip <|
  .seq (.act workerAlloc) (.ite (fun _ m => m.worker.isNone) .skip runWorker)

def ensureCaptureBuffer : Prog Answer Memory :=
  .ite (fun _ m => m.stream) .skip (.seq (.act streamBufferAlloc) (.act captureStreamStore))

/-- `start_capture`, from where the buffer is there. -/
def arm : Prog Answer Memory :=
  .seq (.loop (fun a _ => a.yes) (.act receive)) <| .seq (.act (captureDeviceStore true)) <|
  .seq (.act (captureActiveStore true)) <| .seq (.act startAsyncRx) .call

/-- `start_capture`; the first answer is whether the params, the device or the frequency is
refused. -/
def startCapture : Prog Answer Memory :=
  .ite (fun _ m => m.active) .call <|
  .ite (fun a _ => a.yes) .call <|
  .seq (.act devicesBegin) <|
  .ite (fun _ m => !m.begun) .call <|
  .seq ensureCaptureBuffer <|
  .ite (fun _ m => !m.stream) (.seq (.act devicesEnd) .call) arm

/-- `drain_capture`; a batch that has no whole record is not sent. -/
def drainCapture : Prog Answer Memory :=
  .ite (fun _ m => !m.stream || !m.active) .skip <|
  .seq (.act receive) (.ite (fun a _ => a.yes) .call .skip)

/-- The batches that `stop_capture` sends, until one has no whole record. -/
def flush : Prog Answer Memory :=
  .seq (.act receive) (.loop (fun a _ => a.yes) (.seq .call (.act receive)))

/-- `stop_capture`. -/
def stopCapture : Prog Answer Memory :=
  .ite (fun _ m => m.active)
    (.seq (.act (captureActiveStore false)) <| .seq (.act stopAsyncRx) <|
      .seq (.ite (fun _ m => m.device)
        (.seq (.act (captureDeviceStore false)) (.act devicesEnd)) .skip) <|
      .seq (.ite (fun _ m => m.stream) flush .skip) .call)
    .skip

/-! ## What holds between two operations -/

/-- The capture buffer is there, no pointer to edges dangles, and while the HAL transmits
the cursor is within them. -/
def Sound (m : Memory) : Prop :=
  (m.stream = true → m.buffers = 1) ∧ m.buffers ≤ 1 ∧
  (m.txPtr = true → ∃ n, m.edges = some n) ∧
  (m.hal = .tx → m.edges = some m.txLen ∧ m.txPos < m.txLen)

/-- What an interrupt makes of the cursor. -/
def Moves (m : Memory) (pos : Nat) : Prop :=
  if m.hal = .tx then pos < m.txLen else pos = m.txPos

theorem Isr.runs {m : Memory} (h : Sound m) :
    ∀ i : Isr, i.enabled m = true →
      ∃ pos rep, i.handle m = some { m with txPos := pos, txRepeatPos := rep } ∧ Moves m pos
  | .rxCapture, hi => by
      have hhal : m.hal = .rx := beq_iff_eq.mp hi
      refine ⟨m.txPos, m.txRepeatPos, if_neg ?_, (if_neg (by rw [hhal]; decide)).mpr rfl⟩
      rw [Bool.and_eq_true, beq_iff_eq]
      rintro ⟨hstream, hnone⟩
      have := h.1 hstream
      omega
  | .haveRead, _ => by
      refine ⟨m.txPos, m.txRepeatPos, rfl, ?_⟩
      unfold Moves
      split_ifs with hhal
      · exact (h.2.2.2 hhal).2
      · rfl
  | .txYield, hi => by
      have hhal : m.hal = .tx := beq_iff_eq.mp hi
      obtain ⟨hedges, hpos⟩ := h.2.2.2 hhal
      have hmoves : ∀ pos, pos < m.txLen → Moves m pos := fun pos hlt => (if_pos hhal).mpr hlt
      simp only [handle]
      split_ifs with h₁ h₂ h₃ h₄
      · exact ⟨m.txPos, m.txRepeatPos, rfl, hmoves _ hpos⟩
      · exact ⟨m.txPos, m.txRepeatPos, rfl, hmoves _ hpos⟩
      · exact ⟨0, _, rfl, hmoves _ (by omega)⟩
      · exact ⟨m.txPos + 1, m.txRepeatPos, rfl, hmoves _ (by omega)⟩
      · exact absurd ⟨_, hedges, hpos⟩ h₃

/-- The interrupts move the cursor of a transmission within the edges and nothing else. -/
theorem stable {F : Memory → Prop} (hF : ∀ m, F m → Sound m)
    (hpos : ∀ m pos rep, F m → Moves m pos → F { m with txPos := pos, txRepeatPos := rep }) :
    interrupts.Stable Sound F where
  holds := hF
  kept i m hm hi := by
    obtain ⟨pos, rep, hrun, hmoves⟩ := i.runs (hF m hm) hi
    exact ⟨_, hrun, hpos m pos rep hm hmoves⟩

/-- There is a buffer if the static says so, and no other. -/
def OneBuffer (m : Memory) : Prop := m.buffers = if m.stream then 1 else 0

/-- Nothing is lent to the transmitter, and there is no worker. -/
def NoTx (m : Memory) : Prop := m.txPtr = false ∧ m.edges = none ∧ m.worker = none

/-- The HAL is idle and no capture announced; `begun` is whether the device is. -/
def Idle (begun : Bool) (m : Memory) : Prop :=
  OneBuffer m ∧ m.hal = .idle ∧ m.begun = begun ∧ m.active = false ∧ m.device = false

/-- A capture runs. -/
def Capturing (m : Memory) : Prop :=
  OneBuffer m ∧ m.hal = .rx ∧ m.begun = true ∧ m.active = true ∧ m.device = true ∧ m.stream = true

/-- Between two requests. -/
def Resting (m : Memory) : Prop := (Idle false m ∨ Capturing m) ∧ NoTx m

/-- Nothing runs; `begun` is whether the device is begun. -/
def Stopped (begun : Bool) (m : Memory) : Prop := Idle begun m ∧ NoTx m

/-- `transmit` has the edges, or has found none; it has lent them to nobody. -/
def Parsed (m : Memory) : Prop :=
  Idle false m ∧ m.txPtr = false ∧ m.worker = none ∧ ∀ n ∈ m.edges, 0 < n

/-- There are edges. -/
def Filled (m : Memory) : Prop := m.worker = none ∧ ∃ n, m.edges = some n ∧ 0 < n

def Collected (begun : Bool) (m : Memory) : Prop := Idle begun m ∧ m.txPtr = false ∧ Filled m

def Published (m : Memory) : Prop := Idle true m ∧ Filled m

/-- The length is that of the edges. -/
def Fitted (m : Memory) : Prop := m.worker = none ∧ m.edges = some m.txLen ∧ 0 < m.txLen

def Measured (m : Memory) : Prop := Idle true m ∧ Fitted m

/-- As before, and the cursor is within the edges. -/
def Aimed (m : Memory) : Prop := Idle true m ∧ Fitted m ∧ m.txPos < m.txLen

def Sending (m : Memory) : Prop :=
  OneBuffer m ∧ m.hal = .tx ∧ m.begun = true ∧ m.active = false ∧ m.device = false ∧
    Fitted m ∧ m.txPos < m.txLen

/-- The device is given back, and the pointer not yet cleared. -/
def Ended (m : Memory) : Prop := Idle false m ∧ Filled m

/-- The worker is there; `running` is whether it runs. -/
def Probing (running : Bool) (m : Memory) : Prop :=
  Idle false m ∧ m.txPtr = false ∧ m.edges = none ∧ m.worker = some running

/-- `ensure_capture_buffer` has allocated the buffer and not published it. -/
def Allocated (m : Memory) : Prop :=
  m.stream = false ∧ (m.buffers = if m.sb then 1 else 0) ∧ m.hal = .idle ∧ m.begun = true ∧
    m.active = false ∧ m.device = false ∧ NoTx m

/-- The device is begun, and there is a buffer: where a capture is announced and started,
or over and not yet given back. -/
def Ready (hal : HalState) (device active : Bool) (m : Memory) : Prop :=
  OneBuffer m ∧ m.stream = true ∧ m.hal = hal ∧ m.begun = true ∧ m.device = device ∧
    m.active = active ∧ NoTx m

/-- The capture is over and the device given back. -/
def Flushing (m : Memory) : Prop := Stopped false m ∧ m.stream = true

theorem OneBuffer.sound {m : Memory} (h : OneBuffer m) :
    (m.stream = true → m.buffers = 1) ∧ m.buffers ≤ 1 := by
  refine ⟨fun hstream => h.trans (if_pos hstream), ?_⟩
  rw [h]
  split <;> omega

/-- With the HAL not transmitting, all is sound if no pointer dangles. -/
theorem OneBuffer.sound_of {m : Memory} (h : OneBuffer m) (hhal : m.hal ≠ .tx)
    (hptr : m.txPtr = true → ∃ n, m.edges = some n) : Sound m :=
  ⟨h.sound.1, h.sound.2, hptr, fun htx => absurd htx hhal⟩

theorem Idle.hal {begun : Bool} {m : Memory} (h : Idle begun m) : m.hal ≠ .tx := by
  rw [h.2.1]
  decide

theorem NoTx.ptr {m : Memory} (h : NoTx m) : m.txPtr = true → ∃ n, m.edges = some n :=
  fun hptr => absurd (h.1.symm.trans hptr) Bool.false_ne_true

theorem Filled.ptr {m : Memory} (h : Filled m) : m.txPtr = true → ∃ n, m.edges = some n :=
  fun _ => h.2.imp fun _ hn => hn.1

theorem Fitted.filled {m : Memory} (h : Fitted m) : Filled m := ⟨h.1, _, h.2.1, h.2.2⟩

theorem Resting.stable : interrupts.Stable Sound Resting :=
  Memory.stable (fun m h => by
    obtain ⟨hidle | hcap, hnone⟩ := h
    · exact hidle.1.sound_of hidle.hal hnone.ptr
    · exact hcap.1.sound_of (by rw [hcap.2.1]; decide) hnone.ptr) fun _ _ _ h _ => h

theorem Stopped.stable (begun : Bool) : interrupts.Stable Sound (Stopped begun) :=
  Memory.stable (fun _ h => h.1.1.sound_of h.1.hal h.2.ptr) fun _ _ _ h _ => h

theorem Stopped.resting {m : Memory} (h : Stopped false m) : Resting m := ⟨.inl h.1, h.2⟩

theorem Parsed.stable : interrupts.Stable Sound Parsed :=
  Memory.stable (fun _ h => h.1.1.sound_of h.1.hal fun hptr =>
    absurd (h.2.1.symm.trans hptr) Bool.false_ne_true) fun _ _ _ h _ => h

theorem Collected.stable (begun : Bool) : interrupts.Stable Sound (Collected begun) :=
  Memory.stable (fun _ h => h.1.1.sound_of h.1.hal h.2.2.ptr) fun _ _ _ h _ => h

theorem Published.stable : interrupts.Stable Sound Published :=
  Memory.stable (fun _ h => h.1.1.sound_of h.1.hal h.2.ptr) fun _ _ _ h _ => h

theorem Measured.stable : interrupts.Stable Sound Measured :=
  Memory.stable (fun _ h => h.1.1.sound_of h.1.hal h.2.filled.ptr) fun _ _ _ h _ => h

theorem Aimed.stable : interrupts.Stable Sound Aimed :=
  Memory.stable (fun _ h => h.1.1.sound_of h.1.hal h.2.1.filled.ptr) fun m pos _ h hmoves => by
    have hsame : pos = m.txPos := (if_neg h.1.hal).mp hmoves
    exact ⟨h.1, h.2.1, hsame ▸ h.2.2⟩

theorem Sending.stable : interrupts.Stable Sound Sending :=
  Memory.stable
    (fun _ h => ⟨h.1.sound.1, h.1.sound.2, h.2.2.2.2.2.1.filled.ptr,
      fun _ => ⟨h.2.2.2.2.2.1.2.1, h.2.2.2.2.2.2⟩⟩)
    fun _ _ _ ⟨hbuf, hhal, hbegun, hactive, hdevice, hfit, _⟩ hmoves =>
      ⟨hbuf, hhal, hbegun, hactive, hdevice, hfit, (if_pos hhal).mp hmoves⟩

theorem Ended.stable : interrupts.Stable Sound Ended :=
  Memory.stable (fun _ h => h.1.1.sound_of h.1.hal h.2.ptr) fun _ _ _ h _ => h

theorem Probing.stable (running : Bool) : interrupts.Stable Sound (Probing running) :=
  Memory.stable (fun _ h => h.1.1.sound_of h.1.hal fun hptr =>
    absurd (h.2.1.symm.trans hptr) Bool.false_ne_true) fun _ _ _ h _ => h

theorem Allocated.stable : interrupts.Stable Sound Allocated :=
  Memory.stable (fun m h => by
    obtain ⟨hstream, hbuffers, hhal, -, -, -, hnone⟩ := h
    refine ⟨fun hset => absurd (hstream.symm.trans hset) Bool.false_ne_true, ?_, hnone.ptr,
      fun htx => absurd (hhal.symm.trans htx) (by decide)⟩
    rw [hbuffers]
    split <;> omega) fun _ _ _ h _ => h

theorem Ready.stable {hal : HalState} (hhal : hal ≠ .tx) (device active : Bool) :
    interrupts.Stable Sound (Ready hal device active) :=
  Memory.stable (fun _ h => h.1.sound_of (h.2.2.1 ▸ hhal) h.2.2.2.2.2.2.ptr) fun _ _ _ h _ => h

theorem Flushing.stable : interrupts.Stable Sound Flushing :=
  Memory.stable (fun m h => (Stopped.stable false).holds m h.1) fun _ _ _ h _ => h

/-- A `receive` leaves everything as it is. -/
theorem receive_eq {m : Memory} (hbuf : OneBuffer m) (hstream : m.stream = true) (a : Answer) :
    receive a m = some m := by
  refine if_pos ?_
  rw [hstream, hbuf.sound.1 hstream]
  rfl

/-! ## The outlines -/

theorem finishTx_outline :
    interrupts.Outline Sound (fun m => Sending m ∨ Aimed m) finishTx (Collected false) := by
  refine .ite (Sending.stable.or Aimed.stable) ?_ ?_
    (.seq (.act Aimed.stable (Collected.stable true) ?_)
      (.act (Collected.stable true) (Collected.stable false) ?_)) <|
    .seq (.loop Sending.stable Sending.stable (fun _ _ h _ => h) (fun _ _ h _ => h)
      (.skip Sending.stable)) <|
    .seq (.act Sending.stable Measured.stable ?_) <|
    .seq (.act Measured.stable Ended.stable ?_) (.act Ended.stable (Collected.stable false) ?_)
  · rintro _ m (hsend | haim) hb
    · rw [hsend.2.1] at hb
      exact absurd hb (by decide)
    · exact haim
  · rintro _ m (hsend | haim) hb
    · exact hsend
    · rw [haim.1.2.1] at hb
      exact absurd hb (by decide)
  · exact fun _ m h => ⟨_, rfl, h.1, rfl, h.2.1.filled⟩
  · exact fun _ m h => ⟨_, if_pos h.1.2.2.1, ⟨h.1.1, h.1.2.1, rfl, h.1.2.2.2⟩, h.2⟩
  · rintro _ m ⟨hbuf, hhal, hbegun, hactive, hdevice, hfit, -⟩
    exact ⟨_, if_pos hhal, ⟨hbuf, rfl, hbegun, hactive, hdevice⟩, hfit⟩
  · exact fun _ m h =>
      ⟨_, if_pos h.1.2.2.1, ⟨h.1.1, h.1.2.1, rfl, h.1.2.2.2⟩, h.2.filled⟩
  · exact fun _ m h => ⟨_, rfl, h.1, rfl, h.2⟩

theorem play_outline : interrupts.Outline Sound (Collected true) play (Collected false) := by
  refine .seq (.act (Collected.stable true) Published.stable ?_) <|
    .seq (.act Published.stable Measured.stable ?_) <|
    .seq (.act Measured.stable Aimed.stable ?_) <|
    .seq (.act Aimed.stable Aimed.stable ?_) <|
    .seq (.act Aimed.stable Aimed.stable ?_) <|
    .seq (.act Aimed.stable (Sending.stable.or Aimed.stable) ?_) finishTx_outline
  · exact fun _ m h => ⟨_, rfl, h.1, h.2.2⟩
  · rintro _ m ⟨hidle, hworker, n, hn, hpos⟩
    have hlen : m.edges.getD 0 = n := by rw [hn]; rfl
    exact ⟨_, rfl, hidle, hworker, hn.trans (congrArg some hlen.symm), hlen.symm ▸ hpos⟩
  · exact fun _ m h => ⟨_, rfl, h.1, h.2, h.2.2.2⟩
  · exact fun _ m h => ⟨_, rfl, h⟩
  · exact fun _ m h => ⟨_, rfl, h⟩
  · rintro a m ⟨⟨hbuf, hhal, hbegun, hactive, hdevice⟩, hfit, hpos⟩
    refine ⟨_, if_pos ⟨hbegun, hhal⟩, ?_⟩
    split
    · exact .inl ⟨hbuf, rfl, hbegun, hactive, hdevice, hfit, hpos⟩
    · exact .inr ⟨⟨hbuf, hhal, hbegun, hactive, hdevice⟩, hfit, hpos⟩

/-- Where no capture is active, nothing runs. -/
theorem Resting.stopped {m : Memory} (h : Resting m) (hactive : m.active = false) :
    Stopped false m := by
  obtain ⟨hidle | hcap, hnone⟩ := h
  · exact ⟨hidle, hnone⟩
  · exact absurd (hcap.2.2.2.1.symm.trans hactive) (by decide)

theorem Collected.parsed {m : Memory} (h : Collected false m) : Parsed m := by
  obtain ⟨hidle, hptr, hworker, n, hn, hpos⟩ := h
  refine ⟨hidle, hptr, hworker, fun n' hn' => ?_⟩
  rw [Option.mem_def, hn] at hn'
  exact Option.some.inj hn' ▸ hpos

/-- `begin` may be refused, and nothing else fails: the device was not begun. -/
theorem devicesBegin_eq {m : Memory} (h : m.begun = false) (a : Answer) :
    devicesBegin a m = some { m with begun := a.yes } :=
  if_neg (by rw [h]; exact Bool.false_ne_true)

theorem transmit_outline : interrupts.Outline Sound Resting transmit Resting := by
  have hbegun : interrupts.Stable Sound fun m => ∃ begun, Collected begun m :=
    Memory.stable (fun m ⟨begun, h⟩ => (Collected.stable begun).holds m h) fun _ _ _ h _ => h
  have hskip : interrupts.Outline (α := Answer) Sound Parsed .skip Parsed := .skip Parsed.stable
  refine .ite Resting.stable (fun _ _ h _ => h) ?_ (.skip Resting.stable) <|
    .ite (Stopped.stable false) (fun _ _ h _ => h.resting) (fun _ _ h _ => h)
      (.skip Resting.stable) <|
    .seq (.act (Stopped.stable false) Parsed.stable ?_) <|
    .seq (.ite Parsed.stable (fun _ _ h _ => h) ?_ hskip <|
      .ite (Collected.stable false) (fun _ _ h _ => h.parsed) (fun _ _ h _ => h) hskip <|
      .seq (.act (Collected.stable false) hbegun ?_) <|
      .ite hbegun ?_ ?_ hskip
        (.weaken (fun _ h => h) play_outline (fun _ h => h.parsed) Parsed.stable))
    (.act Parsed.stable Resting.stable ?_)
  · intro _ m h hb
    exact h.stopped (Bool.or_eq_false_iff.mp hb).1
  · rintro a m ⟨hidle, hptr, -, hworker⟩
    refine ⟨_, rfl, hidle, hptr, hworker, fun n hn => ?_⟩
    change n ∈ (if 0 < a.count ∧ a.count ≤ maxEdges then some a.count else none) at hn
    split_ifs at hn with hok
    · exact Option.mem_some_iff.mp hn ▸ hok.1
    · cases hn
  · rintro _ m ⟨hidle, hptr, hworker, hall⟩ hb
    cases hedges : m.edges with
    | none =>
        rw [hedges] at hb
        exact absurd hb (by decide)
    | some n => exact ⟨hidle, hptr, hworker, n, hedges, hall n hedges⟩
  · rintro a m ⟨⟨hbuf, hhal, hno, hidle⟩, hrest⟩
    exact ⟨_, devicesBegin_eq hno a, a.yes, ⟨hbuf, hhal, rfl, hidle⟩, hrest⟩
  · rintro _ m ⟨begun, h⟩ hb
    have hno : begun = false := by simpa [h.1.2.2.1] using hb
    exact (hno ▸ h : Collected false m).parsed
  · rintro _ m ⟨begun, h⟩ hb
    have hyes : begun = true := by simpa [h.1.2.2.1] using hb
    exact hyes ▸ h
  · exact fun _ m h => ⟨_, rfl, .inl h.1, h.2.1, rfl, h.2.2.1⟩

theorem runWorker_outline : interrupts.Outline Sound (Probing false) runWorker (Stopped false) := by
  have hstarted : interrupts.Stable Sound fun m => ∃ running, Probing running m :=
    Memory.stable (fun m ⟨running, h⟩ => (Probing.stable running).holds m h) fun _ _ _ h _ => h
  have hfree : interrupts.Outline Sound (Probing false) (.act workerFree) (Stopped false) := by
    refine .act (Probing.stable false) (Stopped.stable false) ?_
    exact fun _ m h => ⟨_, if_pos h.2.2.2, h.1, h.2.1, h.2.2.1, rfl⟩
  have huse : interrupts.Outline Sound (Probing true) (.act workerUse) (Probing true) :=
    .act (Probing.stable true) (Probing.stable true) fun _ m h => ⟨m, if_pos h.2.2.2, h⟩
  refine .seq (.act (Probing.stable false) hstarted ?_) <|
    .ite hstarted ?_ ?_ hfree <|
    .seq huse <|
    .seq (.loop (Probing.stable true) (Probing.stable true) (fun _ _ h _ => h)
      (fun _ _ h _ => h) huse) <|
    .seq (.act (Probing.stable true) (Probing.stable false) ?_) hfree
  · exact fun a m h => ⟨_, if_pos ⟨h.2.2.2, h.1.2.1, h.1.2.2.1⟩, a.yes, h.1, h.2.1, h.2.2.1, rfl⟩
  · rintro _ m ⟨running, h⟩ hb
    have hno : running = false := by simpa [h.2.2.2] using hb
    exact hno ▸ h
  · rintro _ m ⟨running, h⟩ hb
    have hyes : running = true := by simpa [h.2.2.2] using hb
    exact hyes ▸ h
  · exact fun _ m h => ⟨_, if_pos h.2.2.2, h.1, h.2.1, h.2.2.1, rfl⟩

theorem linkProbe_outline : interrupts.Outline Sound Resting linkProbe Resting := by
  refine .ite Resting.stable (fun _ _ h _ => h) ?_ (.skip Resting.stable) <|
    .ite (Stopped.stable false) (fun _ _ h _ => h.resting) (fun _ _ h _ => h)
      (.skip Resting.stable) <|
    .seq (.act (Stopped.stable false) ((Probing.stable false).or (Stopped.stable false)) ?_) <|
    .ite ((Probing.stable false).or (Stopped.stable false)) ?_ ?_ (.skip Resting.stable)
      (.weaken (fun _ h => h) runWorker_outline (fun _ h => h.resting) Resting.stable)
  · intro _ m h hb
    exact h.stopped (Bool.or_eq_false_iff.mp hb).1
  · rintro a m ⟨hidle, hptr, hedges, -⟩
    refine ⟨_, rfl, ?_⟩
    cases hyes : a.yes with
    | true => exact .inl ⟨hidle, hptr, hedges, rfl⟩
    | false => exact .inr ⟨hidle, hptr, hedges, rfl⟩
  · rintro _ m (h | h) hb
    · rw [h.2.2.2] at hb
      exact absurd hb (by decide)
    · exact h.resting
  · rintro _ m (h | h) hb
    · exact h
    · rw [h.2.2.2] at hb
      exact absurd hb (by decide)

theorem ensureCaptureBuffer_outline :
    interrupts.Outline Sound (Stopped true) ensureCaptureBuffer (Stopped true) := by
  have hfresh : interrupts.Stable Sound fun m => Stopped true m ∧ m.stream = false :=
    Memory.stable (fun m h => (Stopped.stable true).holds m h.1) fun _ _ _ h _ => h
  refine .ite (Stopped.stable true) (fun _ _ h _ => h) (fun _ m h hb => ⟨h, hb⟩)
    (.skip (Stopped.stable true)) <|
    .seq (.act hfresh Allocated.stable ?_) (.act Allocated.stable (Stopped.stable true) ?_)
  · rintro a m ⟨⟨⟨hbuf, hhal, hbegun, hactive, hdevice⟩, hnone⟩, hstream⟩
    refine ⟨_, rfl, hstream, ?_, hhal, hbegun, hactive, hdevice, hnone⟩
    have hzero : m.buffers = 0 := by rw [hbuf, hstream]; rfl
    show (if a.yes = true then m.buffers + 1 else m.buffers) = _
    rw [hzero]
  · rintro a m ⟨-, hbuffers, hhal, hbegun, hactive, hdevice, hnone⟩
    exact ⟨_, rfl, ⟨hbuffers, hhal, hbegun, hactive, hdevice⟩, hnone⟩

theorem arm_outline : interrupts.Outline Sound (Ready .idle false false) arm Resting := by
  have hready : ∀ device active, interrupts.Stable Sound (Ready .idle device active) :=
    Ready.stable (by decide)
  refine .seq (.loop (hready false false) (hready false false) (fun _ _ h _ => h)
      (fun _ _ h _ => h) (.act (hready false false) (hready false false) ?_)) <|
    .seq (.act (hready false false) (hready true false) ?_) <|
    .seq (.act (hready true false) (hready true true) ?_) <|
    .seq (.act (hready true true) Resting.stable ?_) (.call Resting.stable)
  · exact fun a m h => ⟨m, receive_eq h.1 h.2.1 a, h⟩
  · exact fun _ m h => ⟨_, rfl, h.1, h.2.1, h.2.2.1, h.2.2.2.1, rfl, h.2.2.2.2.2⟩
  · exact fun _ m h => ⟨_, rfl, h.1, h.2.1, h.2.2.1, h.2.2.2.1, h.2.2.2.2.1, rfl, h.2.2.2.2.2.2⟩
  · rintro _ m ⟨hbuf, hstream, hhal, hbegun, hdevice, hactive, hnone⟩
    exact ⟨_, if_pos ⟨hbegun, hhal⟩, .inr ⟨hbuf, rfl, hbegun, hactive, hdevice, hstream⟩, hnone⟩

theorem startCapture_outline : interrupts.Outline Sound Resting startCapture Resting := by
  have hbegun : interrupts.Stable Sound fun m => ∃ begun, Stopped begun m :=
    Memory.stable (fun m ⟨begun, h⟩ => (Stopped.stable begun).holds m h) fun _ _ _ h _ => h
  have hcall : interrupts.Outline (α := Answer) Sound Resting .call Resting :=
    .call Resting.stable
  refine .ite Resting.stable (fun _ _ h _ => h) (fun _ _ h hb => h.stopped hb) hcall <|
    .ite (Stopped.stable false) (fun _ _ h _ => h.resting) (fun _ _ h _ => h) hcall <|
    .seq (.act (Stopped.stable false) hbegun ?_) <|
    .ite hbegun ?_ ?_ hcall <|
    .seq ensureCaptureBuffer_outline <|
    .ite (Stopped.stable true) (fun _ _ h _ => h) ?_
      (.seq (.act (Stopped.stable true) Resting.stable ?_) hcall) arm_outline
  · rintro a m ⟨⟨hbuf, hhal, hno, hidle⟩, hnone⟩
    exact ⟨_, devicesBegin_eq hno a, a.yes, ⟨hbuf, hhal, rfl, hidle⟩, hnone⟩
  · rintro _ m ⟨begun, h⟩ hb
    have hno : begun = false := by simpa [h.1.2.2.1] using hb
    exact (hno ▸ h : Stopped false m).resting
  · rintro _ m ⟨begun, h⟩ hb
    have hyes : begun = true := by simpa [h.1.2.2.1] using hb
    exact hyes ▸ h
  · rintro _ m ⟨⟨hbuf, hhal, hbegun, hactive, hdevice⟩, hnone⟩ hb
    exact ⟨hbuf, by simpa using hb, hhal, hbegun, hdevice, hactive, hnone⟩
  · exact fun _ m h => ⟨_, if_pos h.1.2.2.1, .inl ⟨h.1.1, h.1.2.1, rfl, h.1.2.2.2⟩, h.2⟩

theorem drainCapture_outline : interrupts.Outline Sound Resting drainCapture Resting := by
  have hstable : interrupts.Stable Sound fun m => Resting m ∧ m.stream = true :=
    Memory.stable (fun m h => Resting.stable.holds m h.1) fun _ _ _ h _ => h
  refine .ite Resting.stable (fun _ _ h _ => h) ?_ (.skip Resting.stable) <|
    .seq (.act hstable Resting.stable ?_) <|
    .ite Resting.stable (fun _ _ h _ => h) (fun _ _ h _ => h) (.call Resting.stable)
      (.skip Resting.stable)
  · intro _ m h hb
    rw [Bool.or_eq_false_iff] at hb
    exact ⟨h, by simpa using hb.1⟩
  · rintro a m ⟨h, hstream⟩
    exact ⟨m, receive_eq (h.1.elim (·.1) (·.1)) hstream a, h⟩

theorem flush_outline : interrupts.Outline Sound Flushing flush Flushing := by
  have hreceive : interrupts.Outline Sound Flushing (.act receive) Flushing :=
    .act Flushing.stable Flushing.stable fun a m h => ⟨m, receive_eq h.1.1.1 h.2 a, h⟩
  exact .seq hreceive (.loop Flushing.stable Flushing.stable (fun _ _ h _ => h)
    (fun _ _ h _ => h) (.seq (.call Flushing.stable) hreceive))

/-- Whether a capture was running or not, none is. -/
theorem stopCapture_outline :
    interrupts.Outline Sound Resting stopCapture (Stopped false) := by
  have hcapturing : interrupts.Stable Sound fun m => Resting m ∧ m.active = true :=
    Memory.stable (fun m h => Resting.stable.holds m h.1) fun _ _ _ h _ => h
  have hrx : interrupts.Stable Sound (Ready .rx true false) := Ready.stable (by decide) ..
  have hidle : ∀ device, interrupts.Stable Sound (Ready .idle device false) :=
    fun device => Ready.stable (by decide) device false
  refine .ite Resting.stable (fun _ m h hb => ⟨h, hb⟩) (fun _ _ h hb => h.stopped hb)
    (.seq (.act hcapturing hrx ?_) <|
      .seq (.act hrx (hidle true) ?_) <|
      .seq (.ite (hidle true) (fun _ _ h _ => h) ?_
        (.seq (.act (hidle true) (hidle false) ?_) (.act (hidle false) Flushing.stable ?_))
        (.skip Flushing.stable)) <|
      .seq (.ite Flushing.stable (fun _ _ h _ => h) (fun _ _ h _ => h.1)
        (.weaken (fun _ h => h) flush_outline (fun _ h => h.1) (Stopped.stable false))
        (.skip (Stopped.stable false)))
      (.call (Stopped.stable false)))
    (.skip (Stopped.stable false))
  · rintro _ m ⟨⟨hidle | hcap, hnone⟩, hactive⟩
    · exact absurd (hidle.2.2.2.1.symm.trans hactive) (by decide)
    · obtain ⟨hbuf, hhal, hbegun, -, hdevice, hstream⟩ := hcap
      exact ⟨_, rfl, hbuf, hstream, hhal, hbegun, hdevice, rfl, hnone⟩
  · rintro _ m ⟨hbuf, hstream, hhal, hrest⟩
    exact ⟨_, if_pos hhal, hbuf, hstream, rfl, hrest⟩
  · intro _ m h hb
    exact absurd (h.2.2.2.2.1.symm.trans hb) (by decide)
  · rintro _ m ⟨hbuf, hstream, hhal, hbegun, -, hrest⟩
    exact ⟨_, rfl, hbuf, hstream, hhal, hbegun, rfl, hrest⟩
  · rintro _ m ⟨hbuf, hstream, hhal, hbegun, hdevice, hactive, hnone⟩
    exact ⟨_, if_pos hbegun, ⟨⟨hbuf, hhal, rfl, hactive, hdevice⟩, hnone⟩, hstream⟩

end Memory

end FlipLink.Subghz

/-
# `FlipLink.Firmware.IrMemory` — what the IR interrupts may touch

`transmit` lends its own vector of timings to `tx_get_data` through `TX_PTR` while
the HAL transmits, and `start_capture` lends the capture buffer, once allocated
and kept, to `rx_capture_isr` while the HAL receives.  The functions stand here as
programs, operation by operation, with what each does to the pointers and to the
state of the HAL; a call of one of the senders is `Prog.call`.

Starting the HAL when it is not idle, stopping it when it does not receive, and
reading a vector that is dropped, or beyond its end, have no outcome.
-/
import FlipLink.Firmware.IrTransmit
import FlipLink.Firmware.Shell

namespace FlipLink.Ir

open Lib

structure Memory where
  /-- The infrared HAL. -/
  hal : HalState
  /-- `CAPTURE_ACTIVE`. -/
  active : Bool
  /-- `CAPTURE_STREAM` is not null. -/
  stream : Bool
  /-- The local `sb` of `ensure_capture_buffer` is not null. -/
  sb : Bool
  /-- How many capture buffers are allocated. -/
  buffers : Nat
  /-- The capture callback is set. -/
  rxCallback : Bool
  /-- `TX_PTR` is not null. -/
  txPtr : Bool
  txLen : Nat
  txPos : Nat
  /-- The data callback is set. -/
  txCallback : Bool
  /-- The length of the local `timings` of `transmit`, while there is one. -/
  timings : Option Nat

namespace Memory

def initial : Memory where
  hal := .idle
  active := false
  stream := false
  sb := false
  buffers := 0
  rxCallback := false
  txPtr := false
  txLen := 0
  txPos := 0
  txCallback := false
  timings := none

/-! ## The interrupts -/

inductive Isr where
  | rxCapture
  | txGetData

def Isr.enabled (m : Memory) : Isr → Bool
  | .rxCapture => m.hal == .rx && m.rxCallback
  | .txGetData => m.hal == .tx && m.txCallback

def Isr.handle (m : Memory) : Isr → Option Memory
  | .rxCapture => if m.stream && m.buffers == 0 then none else some m
  | .txGetData =>
      if !m.txPtr || m.txLen ≤ m.txPos then some m
      else if ∃ n ∈ m.timings, m.txPos < n then some { m with txPos := m.txPos + 1 }
      else none

def interrupts : Interrupts Memory Isr where
  enabled i m := i.enabled m
  handle i m := i.handle m

/-! ## The operations -/

/-- `timings` is collected from the params. -/
def collect (a : Answer) (m : Memory) : Option Memory := some { m with timings := some a.count }

/-- `transmit` returns. -/
def dropTimings (_ : Answer) (m : Memory) : Option Memory := some { m with timings := none }

def txPtrStore (_ : Answer) (m : Memory) : Option Memory := some { m with txPtr := true }

def txLenStore (_ : Answer) (m : Memory) : Option Memory :=
  some { m with txLen := m.timings.getD 0 }

def txPosStore (_ : Answer) (m : Memory) : Option Memory := some { m with txPos := 0 }

def setDataIsrCallback (_ : Answer) (m : Memory) : Option Memory :=
  some { m with txCallback := true }

def asyncTxStart (_ : Answer) (m : Memory) : Option Memory :=
  if m.hal = .idle then some { m with hal := .tx } else none

def asyncTxWaitTermination (_ : Answer) (m : Memory) : Option Memory :=
  if m.hal = .tx then some { m with hal := .idle } else none

def txPtrClear (_ : Answer) (m : Memory) : Option Memory := some { m with txPtr := false }

/-- The buffer is allocated, unless there is no room for it. -/
def streamBufferAlloc (a : Answer) (m : Memory) : Option Memory :=
  some { m with sb := a.yes, buffers := if a.yes then m.buffers + 1 else m.buffers }

def captureStreamStore (_ : Answer) (m : Memory) : Option Memory := some { m with stream := m.sb }

/-- A `receive` from the capture buffer. -/
def receive (_ : Answer) (m : Memory) : Option Memory :=
  if m.stream && 0 < m.buffers then some m else none

def captureActiveStore (active : Bool) (_ : Answer) (m : Memory) : Option Memory :=
  some { m with active }

def setCaptureIsrCallback (_ : Answer) (m : Memory) : Option Memory :=
  some { m with rxCallback := true }

def asyncRxStart (_ : Answer) (m : Memory) : Option Memory :=
  if m.hal = .idle then some { m with hal := .rx } else none

def asyncRxStop (_ : Answer) (m : Memory) : Option Memory :=
  if m.hal = .rx then some { m with hal := .idle } else none

/-! ## The programs -/

/-- `transmit`, from where the timings are published. -/
def play : Prog Answer Memory :=
  .seq (.act txPtrStore) <| .seq (.act txLenStore) <| .seq (.act txPosStore) <|
  .seq (.act setDataIsrCallback) <| .seq (.act asyncTxStart) <|
  .seq (.act asyncTxWaitTermination) (.act txPtrClear)

/-- `transmit`; the first answer is whether there is no array of timings. -/
def transmit : Prog Answer Memory :=
  .ite (fun a _ => a.yes) .skip <|
  .seq (.act collect) <|
  .seq
    (.ite (fun _ m => m.timings == some 0) .skip <|
      .ite (fun _ m => decide (maxEdges < m.timings.getD 0)) .skip <|
      .ite (fun _ m => m.hal != .idle) .skip play)
    (.act dropTimings)

def ensureCaptureBuffer : Prog Answer Memory :=
  .ite (fun _ m => m.stream) .skip (.seq (.act streamBufferAlloc) (.act captureStreamStore))

/-- `start_capture`, from where the buffer is there: the stale bytes are drained, and the
receiver is started behind STREAM_START. -/
def arm : Prog Answer Memory :=
  .seq (.loop (fun a _ => a.yes) (.act receive)) <| .seq (.act (captureActiveStore true)) <|
  .seq .call <| .seq (.act setCaptureIsrCallback) (.act asyncRxStart)

def startCapture : Prog Answer Memory :=
  .ite (fun _ m => m.active || m.hal != .idle) .call <|
  .seq ensureCaptureBuffer (.ite (fun _ m => !m.stream) .call arm)

/-- `drain_capture`; a batch that has no whole sample is not sent. -/
def drainCapture : Prog Answer Memory :=
  .ite (fun _ m => !m.stream || !m.active) .skip <|
  .seq (.act receive) (.ite (fun a _ => a.yes) .call .skip)

/-- The batches that `stop_capture` sends, until one has no whole sample. -/
def flush : Prog Answer Memory :=
  .seq (.act receive) (.loop (fun a _ => a.yes) (.seq .call (.act receive)))

/-- `stop_capture`. -/
def stopCapture : Prog Answer Memory :=
  .ite (fun _ m => m.active)
    (.seq (.act (captureActiveStore false)) <| .seq (.act asyncRxStop) <|
      .seq (.ite (fun _ m => m.stream) flush .skip) .call)
    .skip

/-! ## What holds between two operations -/

/-- The capture buffer is there, and no vector is read that is not there, nor beyond its
end. -/
def Sound (m : Memory) : Prop :=
  (m.stream = true → m.buffers = 1) ∧ m.buffers ≤ 1 ∧
  (m.txPtr = true → ∃ n, m.timings = some n) ∧ (m.hal = .tx → m.timings = some m.txLen)

theorem Isr.runs {m : Memory} (h : Sound m) :
    ∀ i : Isr, i.enabled m = true → ∃ pos, i.handle m = some { m with txPos := pos }
  | .rxCapture, _ => by
      refine ⟨m.txPos, if_neg ?_⟩
      rw [Bool.and_eq_true, beq_iff_eq]
      rintro ⟨hstream, hnone⟩
      have := h.1 hstream
      omega
  | .txGetData, hi => by
      have htimings : m.timings = some m.txLen :=
        h.2.2.2 (beq_iff_eq.mp (Bool.and_eq_true_iff.mp hi).1)
      by_cases hend : (!m.txPtr || m.txLen ≤ m.txPos) = true
      · exact ⟨m.txPos, if_pos hend⟩
      · refine ⟨m.txPos + 1, (if_neg hend).trans (if_pos ⟨_, htimings, ?_⟩)⟩
        simp only [Bool.or_eq_true, decide_eq_true_eq, not_or] at hend
        omega

/-- The interrupts move the cursor of a transmission and nothing else. -/
theorem stable {F : Memory → Prop} (hF : ∀ m, F m → Sound m)
    (hpos : ∀ m pos, F m → F { m with txPos := pos }) : interrupts.Stable Sound F where
  holds := hF
  kept i m hm hi := by
    obtain ⟨pos, hpos'⟩ := i.runs (hF m hm) hi
    exact ⟨_, hpos', hpos m pos hm⟩

/-- There is a buffer if the static says so, and no other. -/
def OneBuffer (m : Memory) : Prop := m.buffers = if m.stream then 1 else 0

/-- No capture, and the HAL idle. -/
def Idle (m : Memory) : Prop := OneBuffer m ∧ m.hal = .idle ∧ m.active = false

/-- A capture runs exactly while the HAL receives. -/
def Captures (m : Memory) : Prop :=
  OneBuffer m ∧
    (m.hal = .idle ∧ m.active = false ∨ m.hal = .rx ∧ m.active = true ∧ m.stream = true)

/-- Nothing is lent to the transmitter. -/
def NoTx (m : Memory) : Prop := m.txPtr = false ∧ m.timings = none

/-- Between two requests. -/
def Resting (m : Memory) : Prop := Captures m ∧ NoTx m

/-- Between two requests, and no capture is running. -/
def Stopped (m : Memory) : Prop := Idle m ∧ NoTx m

/-- `transmit` has collected the timings, and lent them to nobody. -/
def Collected (m : Memory) : Prop := Captures m ∧ m.txPtr = false ∧ ∃ n, m.timings = some n

/-- As before, and the HAL was found idle. -/
def Checked (m : Memory) : Prop := Idle m ∧ m.txPtr = false ∧ ∃ n, m.timings = some n

def Published (m : Memory) : Prop := Idle m ∧ ∃ n, m.timings = some n

def Measured (m : Memory) : Prop := Idle m ∧ m.timings = some m.txLen

def Sending (m : Memory) : Prop :=
  OneBuffer m ∧ m.hal = .tx ∧ m.active = false ∧ m.timings = some m.txLen

/-- `ensure_capture_buffer` has allocated the buffer and not published it. -/
def Allocated (m : Memory) : Prop :=
  m.stream = false ∧ (m.buffers = if m.sb then 1 else 0) ∧ m.hal = .idle ∧ m.active = false ∧ NoTx m

/-- The HAL is idle, and there is a buffer; `active` is whether the capture is announced. -/
def Ready (active : Bool) (m : Memory) : Prop :=
  OneBuffer m ∧ m.stream = true ∧ m.hal = .idle ∧ m.active = active ∧ NoTx m

/-- The capture is over, and the HAL still receives. -/
def Stopping (m : Memory) : Prop :=
  OneBuffer m ∧ m.stream = true ∧ m.hal = .rx ∧ m.active = false ∧ NoTx m

theorem OneBuffer.sound {m : Memory} (h : OneBuffer m) :
    (m.stream = true → m.buffers = 1) ∧ m.buffers ≤ 1 := by
  refine ⟨fun hstream => h.trans (if_pos hstream), ?_⟩
  rw [h]
  split <;> omega

/-- With a buffer, nothing lent and the HAL not transmitting, all is sound. -/
theorem NoTx.sound {m : Memory} (h : NoTx m) (hbuf : OneBuffer m) (hhal : m.hal ≠ .tx) :
    Sound m :=
  ⟨hbuf.sound.1, hbuf.sound.2, fun hptr => absurd (h.1.symm.trans hptr) Bool.false_ne_true,
    fun htx => absurd htx hhal⟩

theorem Captures.hal {m : Memory} (h : Captures m) : m.hal ≠ .tx := by
  rcases h.2 with ⟨hhal, -⟩ | ⟨hhal, -⟩ <;> rw [hhal] <;> decide

theorem Resting.stable : interrupts.Stable Sound Resting :=
  Memory.stable (fun _ h => h.2.sound h.1.1 h.1.hal) fun _ _ h => h

theorem Stopped.stable : interrupts.Stable Sound Stopped :=
  Memory.stable (fun _ h => h.2.sound h.1.1 (by rw [h.1.2.1]; decide)) fun _ _ h => h

theorem Stopped.resting {m : Memory} (h : Stopped m) : Resting m := ⟨⟨h.1.1, .inl h.1.2⟩, h.2⟩

theorem Collected.stable : interrupts.Stable Sound Collected :=
  Memory.stable (fun _ h => ⟨h.1.1.sound.1, h.1.1.sound.2, fun _ => h.2.2,
    fun htx => absurd htx h.1.hal⟩) fun _ _ h => h

theorem Published.stable : interrupts.Stable Sound Published :=
  Memory.stable (fun _ h => ⟨h.1.1.sound.1, h.1.1.sound.2, fun _ => h.2,
    fun htx => absurd (h.1.2.1.symm.trans htx) (by decide)⟩) fun _ _ h => h

theorem Checked.stable : interrupts.Stable Sound Checked :=
  Memory.stable (fun _ h => Published.stable.holds _ ⟨h.1, h.2.2⟩) fun _ _ h => h

theorem Measured.stable : interrupts.Stable Sound Measured :=
  Memory.stable (fun _ h => ⟨h.1.1.sound.1, h.1.1.sound.2, fun _ => ⟨_, h.2⟩, fun _ => h.2⟩)
    fun _ _ h => h

theorem Sending.stable : interrupts.Stable Sound Sending :=
  Memory.stable (fun _ h => ⟨h.1.sound.1, h.1.sound.2, fun _ => ⟨_, h.2.2.2⟩, fun _ => h.2.2.2⟩)
    fun _ _ h => h

theorem Allocated.stable : interrupts.Stable Sound Allocated :=
  Memory.stable (fun m h => by
    obtain ⟨hstream, hbuffers, hhal, -, hnone⟩ := h
    refine ⟨fun hset => absurd (hstream.symm.trans hset) Bool.false_ne_true, ?_,
      fun hptr => absurd (hnone.1.symm.trans hptr) Bool.false_ne_true,
      fun htx => absurd (hhal.symm.trans htx) (by decide)⟩
    rw [hbuffers]
    split <;> omega) fun _ _ h => h

theorem Ready.stable (active : Bool) : interrupts.Stable Sound (Ready active) :=
  Memory.stable (fun _ h => h.2.2.2.2.sound h.1 (by rw [h.2.2.1]; decide)) fun _ _ h => h

theorem Stopping.stable : interrupts.Stable Sound Stopping :=
  Memory.stable (fun _ h => h.2.2.2.2.sound h.1 (by rw [h.2.2.1]; decide)) fun _ _ h => h

/-- A `receive` leaves everything as it is. -/
theorem receive_eq {m : Memory} (hbuf : OneBuffer m) (hstream : m.stream = true) (a : Answer) :
    receive a m = some m := by
  refine if_pos ?_
  rw [hstream, hbuf.sound.1 hstream]
  rfl

/-! ## The outlines -/

theorem play_outline : interrupts.Outline Sound Checked play Collected := by
  refine .seq (.act Checked.stable Published.stable ?_) <|
    .seq (.act Published.stable Measured.stable ?_) <|
    .seq (.act Measured.stable Measured.stable ?_) <|
    .seq (.act Measured.stable Measured.stable ?_) <|
    .seq (.act Measured.stable Sending.stable ?_) <|
    .seq (.act Sending.stable Measured.stable ?_) (.act Measured.stable Collected.stable ?_)
  · exact fun _ m h => ⟨_, rfl, h.1, h.2.2⟩
  · rintro _ m ⟨hidle, n, hn⟩
    refine ⟨_, rfl, hidle, ?_⟩
    rw [hn]
    rfl
  · exact fun _ m h => ⟨_, rfl, h⟩
  · exact fun _ m h => ⟨_, rfl, h⟩
  · exact fun _ m h => ⟨_, if_pos h.1.2.1, h.1.1, rfl, h.1.2.2, h.2⟩
  · exact fun _ m h => ⟨_, if_pos h.2.1, ⟨h.1, rfl, h.2.2.1⟩, h.2.2.2⟩
  · exact fun _ m h => ⟨_, rfl, ⟨h.1.1, .inl h.1.2⟩, rfl, _, h.2⟩

theorem transmit_outline : interrupts.Outline Sound Resting transmit Resting := by
  have hskip : interrupts.Outline (α := Answer) Sound Collected .skip Collected :=
    .skip Collected.stable
  refine .ite Resting.stable (fun _ _ h _ => h) (fun _ _ h _ => h) (.skip Resting.stable) <|
    .seq (.act Resting.stable Collected.stable ?_) <|
    .seq (.ite Collected.stable (fun _ _ h _ => h) (fun _ _ h _ => h) hskip <|
      .ite Collected.stable (fun _ _ h _ => h) (fun _ _ h _ => h) hskip <|
      .ite Collected.stable (fun _ _ h _ => h) ?_ hskip play_outline)
    (.act Collected.stable Resting.stable ?_)
  · exact fun _ m h => ⟨_, rfl, h.1, h.2.1, _, rfl⟩
  · intro _ m h hb
    have hhal : m.hal = .idle := by simpa using hb
    rcases h.1.2 with hidle | ⟨hrx, -⟩
    · exact ⟨⟨h.1.1, hidle⟩, h.2⟩
    · exact absurd (hhal.symm.trans hrx) (by decide)
  · exact fun _ m h => ⟨_, rfl, h.1, h.2.1, rfl⟩

theorem ensureCaptureBuffer_outline :
    interrupts.Outline Sound Stopped ensureCaptureBuffer Stopped := by
  have hfresh : interrupts.Stable Sound fun m => Stopped m ∧ m.stream = false :=
    Memory.stable (fun m h => Stopped.stable.holds m h.1) fun _ _ h => h
  refine .ite Stopped.stable (fun _ _ h _ => h) (fun _ m h hb => ⟨h, hb⟩) (.skip Stopped.stable) <|
    .seq (.act hfresh Allocated.stable ?_) (.act Allocated.stable Stopped.stable ?_)
  · rintro a m ⟨⟨⟨hbuf, hhal, hactive⟩, hnone⟩, hstream⟩
    refine ⟨_, rfl, hstream, ?_, hhal, hactive, hnone⟩
    have hzero : m.buffers = 0 := by rw [hbuf, hstream]; rfl
    show (if a.yes = true then m.buffers + 1 else m.buffers) = _
    rw [hzero]
  · rintro a m ⟨-, hbuffers, hhal, hactive, hnone⟩
    exact ⟨_, rfl, ⟨hbuffers, hhal, hactive⟩, hnone⟩

theorem arm_outline : interrupts.Outline Sound (Ready false) arm Resting := by
  refine .seq (.loop (Ready.stable false) (Ready.stable false) (fun _ _ h _ => h)
      (fun _ _ h _ => h) (.act (Ready.stable false) (Ready.stable false) ?_)) <|
    .seq (.act (Ready.stable false) (Ready.stable true) ?_) <|
    .seq (.call (Ready.stable true)) <|
    .seq (.act (Ready.stable true) (Ready.stable true) ?_)
      (.act (Ready.stable true) Resting.stable ?_)
  · exact fun a m h => ⟨m, receive_eq h.1 h.2.1 a, h⟩
  · exact fun _ m h => ⟨_, rfl, h.1, h.2.1, h.2.2.1, rfl, h.2.2.2.2⟩
  · exact fun _ m h => ⟨_, rfl, h⟩
  · rintro _ m ⟨hbuf, hstream, hhal, hactive, hnone⟩
    exact ⟨_, if_pos hhal, ⟨hbuf, .inr ⟨rfl, hactive, hstream⟩⟩, hnone⟩

theorem startCapture_outline : interrupts.Outline Sound Resting startCapture Resting := by
  refine .ite Resting.stable (fun _ _ h _ => h) ?_ (.call Resting.stable) <|
    .seq ensureCaptureBuffer_outline <|
    .ite Stopped.stable (fun _ _ h _ => h.resting) ?_ (.call Resting.stable) arm_outline
  · rintro _ m ⟨⟨hbuf, hcap⟩, hnone⟩ hb
    rw [Bool.or_eq_false_iff] at hb
    rcases hcap with hidle | ⟨-, hactive, -⟩
    · exact ⟨⟨hbuf, hidle⟩, hnone⟩
    · exact absurd (hb.1.symm.trans hactive) (by decide)
  · rintro _ m ⟨⟨hbuf, hhal, hactive⟩, hnone⟩ hb
    exact ⟨hbuf, by simpa using hb, hhal, hactive, hnone⟩

theorem drainCapture_outline : interrupts.Outline Sound Resting drainCapture Resting := by
  have hstable : interrupts.Stable Sound fun m => Resting m ∧ m.stream = true :=
    Memory.stable (fun m h => Resting.stable.holds m h.1) fun _ _ h => h
  refine .ite Resting.stable (fun _ _ h _ => h) ?_ (.skip Resting.stable) <|
    .seq (.act hstable Resting.stable ?_) <|
    .ite Resting.stable (fun _ _ h _ => h) (fun _ _ h _ => h) (.call Resting.stable)
      (.skip Resting.stable)
  · intro _ m h hb
    rw [Bool.or_eq_false_iff] at hb
    exact ⟨h, by simpa using hb.1⟩
  · exact fun a m h => ⟨m, receive_eq h.1.1.1 h.2 a, h.1⟩

theorem flush_outline : interrupts.Outline Sound (Ready false) flush (Ready false) := by
  have hreceive : interrupts.Outline Sound (Ready false) (.act receive) (Ready false) :=
    .act (Ready.stable false) (Ready.stable false) fun a m h => ⟨m, receive_eq h.1 h.2.1 a, h⟩
  exact .seq hreceive (.loop (Ready.stable false) (Ready.stable false) (fun _ _ h _ => h)
    (fun _ _ h _ => h) (.seq (.call (Ready.stable false)) hreceive))

/-- Whether a capture was running or not, none is. -/
theorem stopCapture_outline : interrupts.Outline Sound Resting stopCapture Stopped := by
  have hcapturing : interrupts.Stable Sound fun m => Resting m ∧ m.active = true :=
    Memory.stable (fun m h => Resting.stable.holds m h.1) fun _ _ h => h
  have hstopped : ∀ m, Ready false m → Stopped m :=
    fun m ⟨hbuf, _, hhal, hactive, hnone⟩ => ⟨⟨hbuf, hhal, hactive⟩, hnone⟩
  refine .ite Resting.stable (fun _ m h hb => ⟨h, hb⟩) ?_
    (.seq (.act hcapturing Stopping.stable ?_) <|
      .seq (.act Stopping.stable (Ready.stable false) ?_) <|
      .seq (.ite (Ready.stable false) (fun _ _ h _ => h) (fun _ m h _ => hstopped m h)
        (.weaken (fun _ h => h) flush_outline hstopped Stopped.stable) (.skip Stopped.stable))
      (.call Stopped.stable))
    (.skip Stopped.stable)
  · rintro _ m ⟨⟨hbuf, hcap⟩, hnone⟩ hb
    rcases hcap with hidle | ⟨-, hactive, -⟩
    · exact ⟨⟨hbuf, hidle⟩, hnone⟩
    · exact absurd (hb.symm.trans hactive) (by decide)
  · rintro _ m ⟨⟨⟨hbuf, hcap⟩, hnone⟩, hactive⟩
    rcases hcap with ⟨-, hno⟩ | ⟨hhal, -, hstream⟩
    · exact absurd (hno.symm.trans hactive) (by decide)
    · exact ⟨_, rfl, hbuf, hstream, hhal, rfl, hnone⟩
  · rintro _ m ⟨hbuf, hstream, hhal, hactive, hnone⟩
    exact ⟨_, if_pos hhal, hbuf, hstream, rfl, hactive, hnone⟩

end Memory

end FlipLink.Ir

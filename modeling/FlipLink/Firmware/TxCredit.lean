/-
# `FlipLink.Firmware.TxCredit` — `cdc_send_all` and the transmit credit

`cdc_send_all` cuts what it is given into packets of 64 bytes and takes the one credit
of a semaphore before each; `tx_callback`, which the USB interrupt calls when the host
has taken a packet, puts the credit back.  When no credit comes within 500 ms the rest
of the bytes is not sent.

The credit is in one of three places, the semaphore, the sender or the packet in the
endpoint (`Paced`), so the endpoint is free whenever a packet is handed to it.  What is
handed to it are whole calls one after the other, but for the last packets of those that
were cut (`Progress`, `Call`), and a call is cut only where the host has left a packet in
the endpoint for 500 ms (`Timed`).
-/
import FlipLink.Firmware.MainLoop
import FlipLink.Lib.Machine
import FlipLink.Proto.FrameCodec
import FlipLink.Lib.Sessions

namespace FlipLink.TxCredit

open Lib
open MainLoop (chunkSize)

def cdcTxTimeoutMs : Nat := 500

/-! ## The machine -/

/-- Where `cdc_send_all` is, with its `bytes` and `off`. -/
inductive Sender where
  | idle
  /-- At the condition of the loop. -/
  | head (bytes : List UInt8) (off : Nat)
  | acquire (bytes : List UInt8) (off deadline : Nat)
  | send (bytes : List UInt8) (off : Nat)
  deriving DecidableEq, Repr

structure Tx where
  /-- The credits of `TX_SEM`; `none` is the null pointer. -/
  txSem : Option Nat
  sender : Sender
  /-- The packet that the host has not taken yet, and when it was handed over. -/
  endpoint : Option (List UInt8 × Nat)
  clock : Nat

/-- `furi_semaphore_alloc(1, 1)`. -/
def Tx.initial : Tx where
  txSem := some 1
  sender := .idle
  endpoint := none
  clock := 0

inductive Label where
  /-- One of the senders calls `cdc_send_all`. -/
  | call (bytes : List UInt8)
  /-- The next step of `cdc_send_all`. -/
  | main
  /-- `furi_semaphore_acquire` gives up. -/
  | timeout
  /-- The host takes the packet, and the interrupt comes. -/
  | txComplete
  | tick

inductive Event where
  | called (bytes : List UInt8)
  | handed (packet : List UInt8)
  | took (packet : List UInt8)
  /-- A packet that was in the endpoint when the next one was handed over. -/
  | overrun (packet : List UInt8)
  | returned
  /-- `cdc_send_all` returns with bytes left. -/
  | cut
  deriving DecidableEq, Repr

/-- `tx_callback`; the semaphore holds one credit at most. -/
def Tx.txCallback (s : Tx) : Tx := { s with txSem := s.txSem.map fun n => min 1 (n + 1) }

/-- The next step of `cdc_send_all`. -/
def Tx.main (s : Tx) : Option (Tx × List Event) :=
  match s.sender with
  | .idle => none
  | .head bytes off =>
      if off < bytes.length then
        if s.txSem.isNone then some ({ s with sender := .send bytes off }, [])
        else some ({ s with sender := .acquire bytes off (s.clock + cdcTxTimeoutMs) }, [])
      else some ({ s with sender := .idle }, [.returned])
  | .acquire bytes off _ =>
      match s.txSem with
      | some (n + 1) => some ({ s with txSem := some n, sender := .send bytes off }, [])
      | _ => none
  | .send bytes off =>
      let stop := min (off + chunkSize) bytes.length
      let chunk := (bytes.take stop).drop off
      some ({ s with sender := .head bytes stop, endpoint := some (chunk, s.clock) },
        (s.endpoint.elim [] fun e => [.overrun e.1]) ++ [.handed chunk])

def Tx.timeout (s : Tx) : Option (Tx × List Event) :=
  match s.sender, s.txSem with
  | .acquire _ _ deadline, some 0 =>
      if deadline ≤ s.clock then some ({ s with sender := .idle }, [.cut]) else none
  | _, _ => none

def step (s : Tx) : Label → Option (Tx × List Event)
  | .call bytes =>
      if s.sender = .idle then some ({ s with sender := .head bytes 0 }, [.called bytes]) else none
  | .main => s.main
  | .timeout => s.timeout
  | .txComplete =>
      match s.endpoint with
      | some (packet, _) => some ({ s.txCallback with endpoint := none }, [.took packet])
      | none => none
  | .tick => some ({ s with clock := s.clock + 1 }, [])

def machine : Machine Tx Label Event where
  step := step

/-! ## The packets of a call -/

/-- The `k`-th packet. -/
def packet (bytes : List UInt8) (k : Nat) : List UInt8 :=
  (bytes.drop (chunkSize * k)).take chunkSize

def packets (bytes : List UInt8) (n : Nat) : List (List UInt8) := (List.range n).map (packet bytes)

def packetCount (bytes : List UInt8) : Nat := (bytes.length + (chunkSize - 1)) / chunkSize

theorem lt_packetCount {bytes : List UInt8} {k : Nat} :
    k < packetCount bytes ↔ chunkSize * k < bytes.length := by
  simp only [packetCount, chunkSize]
  omega

theorem packets_succ (bytes : List UInt8) (n : Nat) :
    packets bytes (n + 1) = packets bytes n ++ [packet bytes n] := by
  rw [packets, List.range_succ, List.map_append]
  rfl

theorem flatten_packets (bytes : List UInt8) :
    ∀ n, (packets bytes n).flatten = bytes.take (chunkSize * n)
  | 0 => rfl
  | n + 1 => by
      rw [packets_succ, List.flatten_append, flatten_packets bytes n, List.flatten_singleton,
        Nat.mul_succ, List.take_add]
      rfl

theorem flatten_packetCount (bytes : List UInt8) :
    (packets bytes (packetCount bytes)).flatten = bytes := by
  rw [flatten_packets]
  refine List.take_of_length_le ?_
  simp only [packetCount, chunkSize]
  omega

/-- `&bytes[off..end]`. -/
theorem chunk_eq (bytes : List UInt8) (k : Nat) :
    (bytes.take (min (chunkSize * k + chunkSize) bytes.length)).drop (chunkSize * k)
      = packet bytes k := by
  rw [packet, ← List.take_take, List.take_length, List.drop_take, Nat.add_sub_cancel_left]

/-! ## What `cdc_send_all` does in a run -/

/-- An event of `cdc_send_all`. -/
def Event.ofCall : Event → Bool
  | .took _ | .overrun _ => false
  | _ => true

/-- A call that has handed over `n` packets. -/
def begun (bytes : List UInt8) (n : Nat) : List Event :=
  .called bytes :: (packets bytes n).map .handed

/-- A call that has returned. -/
structure Call where
  bytes : List UInt8
  /-- The packets handed over. -/
  sent : Nat
  within : sent ≤ packetCount bytes

def Call.whole (c : Call) : Prop := c.sent = packetCount c.bytes

instance (c : Call) : Decidable c.whole := Nat.decEq ..

def Call.events (c : Call) : List Event :=
  begun c.bytes c.sent ++ [if c.whole then .returned else .cut]

theorem Call.events_whole {c : Call} (h : c.sent = packetCount c.bytes) :
    c.events = begun c.bytes c.sent ++ [.returned] := by
  rw [events, if_pos (show c.whole from h)]

theorem Call.events_cut {c : Call} (h : c.sent < packetCount c.bytes) :
    c.events = begun c.bytes c.sent ++ [.cut] := by
  rw [events, if_neg (show ¬c.whole from h.ne)]

/-- How far the call under way has come. -/
inductive Progress : Sender → List Event → Prop
  | idle : Progress .idle []
  | head {bytes : List UInt8} {k : Nat} (h : k ≤ packetCount bytes) :
      Progress (.head bytes (min (chunkSize * k) bytes.length)) (begun bytes k)
  | acquire {bytes : List UInt8} {k deadline : Nat} (h : k < packetCount bytes) :
      Progress (.acquire bytes (chunkSize * k) deadline) (begun bytes k)
  | send {bytes : List UInt8} {k : Nat} (h : k < packetCount bytes) :
      Progress (.send bytes (chunkSize * k)) (begun bytes k)

/-! ## The credit -/

/-- The credit that the sender has taken and not used. -/
def Sender.credit : Sender → Nat
  | .send .. => 1
  | _ => 0

def Tx.inFlight (s : Tx) : Nat := s.endpoint.elim 0 fun _ => 1

/-- The one credit. -/
def Paced (s : Tx) : Prop := ∃ n, s.txSem = some n ∧ n + s.sender.credit + s.inFlight = 1

theorem Paced.endpoint {s : Tx} {bytes : List UInt8} {off : Nat} (h : Paced s)
    (hs : s.sender = .send bytes off) : s.endpoint = none := by
  obtain ⟨n, -, hn⟩ := h
  rw [hs, Tx.inFlight] at hn
  cases he : s.endpoint with
  | none => rfl
  | some e =>
      rw [he] at hn
      simp only [Sender.credit, Option.elim] at hn
      omega

/-- What one step does. -/
inductive Moved : Tx → Tx → List Event → Prop
  | call {s : Tx} (bytes : List UInt8) (h : s.sender = .idle) :
      Moved s { s with sender := .head bytes 0 } [.called bytes]
  | ask {s : Tx} {bytes : List UInt8} {off : Nat} (h : s.sender = .head bytes off)
      (hoff : off < bytes.length) :
      Moved s { s with sender := .acquire bytes off (s.clock + cdcTxTimeoutMs) } []
  | done {s : Tx} {bytes : List UInt8} {off : Nat} (h : s.sender = .head bytes off)
      (hoff : bytes.length ≤ off) : Moved s { s with sender := .idle } [.returned]
  | acquired {s : Tx} {bytes : List UInt8} {off deadline n : Nat}
      (h : s.sender = .acquire bytes off deadline) (hn : s.txSem = some (n + 1)) :
      Moved s { s with txSem := some n, sender := .send bytes off } []
  | hand {s : Tx} {bytes : List UInt8} {off : Nat} (h : s.sender = .send bytes off) :
      Moved s
        { s with
          sender := .head bytes (min (off + chunkSize) bytes.length)
          endpoint := some
            ((bytes.take (min (off + chunkSize) bytes.length)).drop off, s.clock) }
        [.handed ((bytes.take (min (off + chunkSize) bytes.length)).drop off)]
  | giveUp {s : Tx} {bytes : List UInt8} {off deadline : Nat}
      (h : s.sender = .acquire bytes off deadline) (hn : s.txSem = some 0)
      (hlate : deadline ≤ s.clock) : Moved s { s with sender := .idle } [.cut]
  | take {s : Tx} {p : List UInt8} {t : Nat} (h : s.endpoint = some (p, t)) :
      Moved s { s.txCallback with endpoint := none } [.took p]
  | tick {s : Tx} : Moved s { s with clock := s.clock + 1 } []

/-- With the credit kept, a packet is handed to a free endpoint. -/
theorem step_moved {s s' : Tx} {l : Label} {es : List Event} (hp : Paced s)
    (h : step s l = some (s', es)) : Moved s s' es := by
  cases l with
  | call bytes =>
      obtain ⟨hidle, h⟩ := Option.ite_none_right_eq_some.mp h
      cases h
      exact .call bytes hidle
  | main =>
      rw [step, Tx.main] at h
      split at h
      · cases h
      · rename_i bytes off hs
        obtain ⟨n, hn, -⟩ := hp
        split_ifs at h with hoff hnone
        · rw [hn] at hnone
          cases hnone
        · cases h
          exact .ask hs hoff
        · cases h
          exact .done hs (Nat.not_lt.mp hoff)
      · rename_i bytes off deadline hs
        split at h
        · rename_i n hn
          cases h
          exact .acquired hs hn
        · cases h
      · rename_i bytes off hs
        rw [hp.endpoint hs] at h
        cases h
        exact .hand hs
  | timeout =>
      rw [step, Tx.timeout] at h
      split at h
      · rename_i bytes off deadline hs hn
        obtain ⟨hlate, h⟩ := Option.ite_none_right_eq_some.mp h
        cases h
        exact .giveUp hs hn hlate
      · cases h
  | txComplete =>
      simp only [step] at h
      split at h
      · rename_i p t he
        cases h
        exact .take he
      · cases h
  | tick =>
      cases h
      exact .tick

theorem paced_initial : Paced .initial := ⟨1, rfl, rfl⟩

theorem Paced.moved {s s' : Tx} {es : List Event} (hp : Paced s) (h : Moved s s' es) :
    Paced s' := by
  obtain ⟨n, hn, hone⟩ := hp
  cases h with
  | call bytes hs => exact ⟨n, hn, by rwa [hs] at hone⟩
  | ask hs => exact ⟨n, hn, by rwa [hs] at hone⟩
  | done hs => exact ⟨n, hn, by rwa [hs] at hone⟩
  | acquired hs hn' =>
      rw [hs] at hone
      cases hn.symm.trans hn'
      exact ⟨_, rfl, by simpa [Sender.credit, Tx.inFlight] using hone⟩
  | hand hs =>
      have hend := Paced.endpoint ⟨n, hn, hone⟩ hs
      rw [hs, Tx.inFlight, hend] at hone
      exact ⟨n, hn, by simpa [Sender.credit, Tx.inFlight] using hone⟩
  | giveUp hs => exact ⟨n, hn, by rwa [hs] at hone⟩
  | take he =>
      rw [Tx.inFlight, he] at hone
      simp only [Option.elim] at hone
      refine ⟨1, by rw [Tx.txCallback, hn]; simp, ?_⟩
      simp only [Tx.txCallback, Tx.inFlight, Option.elim]
      omega
  | tick => exact ⟨n, hn, hone⟩

/-! ## The packets, the host and the clock -/

/-- The packets that were handed over. -/
def handedOf (es : List Event) : List (List UInt8) :=
  es.filterMap fun
    | .handed p => some p
    | _ => none

/-- The packets that the host has taken. -/
def tookOf (es : List Event) : List (List UInt8) :=
  es.filterMap fun
    | .took p => some p
    | _ => none

/-- What the calls were given. -/
def calledOf (es : List Event) : List (List UInt8) :=
  es.filterMap fun
    | .called bytes => some bytes
    | _ => none

def Tx.inEndpoint (s : Tx) : List (List UInt8) := s.endpoint.elim [] fun e => [e.1]

/-- The host's side of the endpoint. -/
structure Conveyed (s : Tx) (es : List Event) : Prop where
  safe : ∀ p, .overrun p ∉ es
  order : tookOf es ++ s.inEndpoint = handedOf es

theorem Conveyed.moved {s s' : Tx} {es es' : List Event} (hp : Paced s) (h : Conveyed s es)
    (hm : Moved s s' es') : Conveyed s' (es ++ es') := by
  obtain ⟨hsafe, horder⟩ := h
  have hno : ∀ p, .overrun p ∉ es' := by
    intro p hmem
    cases hm <;> simp at hmem
  refine ⟨fun p hmem => (List.mem_append.mp hmem).elim (hsafe p) (hno p), ?_⟩
  rw [tookOf, handedOf, List.filterMap_append, List.filterMap_append]
  show tookOf es ++ tookOf es' ++ s'.inEndpoint = handedOf es ++ handedOf es'
  rw [← horder]
  cases hm with
  | hand hs => simp [tookOf, handedOf, Tx.inEndpoint, hp.endpoint hs]
  | take he => simp [tookOf, handedOf, Tx.inEndpoint, he]
  | _ => simp [tookOf, handedOf, Tx.inEndpoint]

/-- The deadline of a sender that waits lies 500 ms behind the packet it waits for. -/
structure Timed (s : Tx) : Prop where
  past : ∀ {p : List UInt8} {t : Nat}, s.endpoint = some (p, t) → t ≤ s.clock
  waits : ∀ {bytes p : List UInt8} {off deadline t : Nat},
    s.sender = .acquire bytes off deadline → s.endpoint = some (p, t) →
      t + cdcTxTimeoutMs ≤ deadline

theorem timed_initial : Timed .initial where
  past h := by cases h
  waits h := by cases h

theorem Timed.moved {s s' : Tx} {es : List Event} (h : Timed s) (hm : Moved s s' es) :
    Timed s' := by
  cases hm with
  | call | done | giveUp => exact ⟨h.past, fun hs => by cases hs⟩
  | acquired => exact ⟨h.past, fun hs => by cases hs⟩
  | ask =>
      refine ⟨h.past, fun hs he => ?_⟩
      cases hs
      exact Nat.add_le_add_right (h.past he) _
  | hand =>
      refine ⟨fun he => ?_, fun hs => by cases hs⟩
      cases he
      exact le_rfl
  | take =>
      refine ⟨fun he => ?_, fun _ he => ?_⟩
      · cases he
      · cases he
  | tick => exact ⟨fun he => Nat.le_succ_of_le (h.past he), fun hs he => h.waits hs he⟩

/-- The calls in the events so far. -/
def Logged (s : Tx) (es : List Event) : Prop :=
  ∃ draft, Progress s.sender draft ∧ Kept Call.events draft (es.filter Event.ofCall)

theorem logged_initial : Logged .initial [] := ⟨[], .idle, kept_nil⟩

/-- The sender does not move. -/
theorem Logged.still {s s' : Tx} {es es' : List Event} (h : Logged s es)
    (hs : s'.sender = s.sender) (hes : es'.filter Event.ofCall = []) :
    Logged s' (es ++ es') := by
  obtain ⟨draft, hdraft, hkept⟩ := h
  refine ⟨draft, by rwa [hs], ?_⟩
  rwa [List.filter_append, hes, List.append_nil]

/-- The sender goes on with its call. -/
theorem Logged.note {s' : Tx} {es es' draft : List Event}
    (hkept : Kept Call.events draft (es.filter Event.ofCall))
    (hes : es'.filter Event.ofCall = es') (h : Progress s'.sender (draft ++ es')) :
    Logged s' (es ++ es') := by
  refine ⟨_, h, ?_⟩
  rw [List.filter_append, hes]
  exact hkept.note es'

/-- The call returns. -/
theorem Logged.close {s' : Tx} {es draft : List Event} {e : Event} (c : Call)
    (hkept : Kept Call.events draft (es.filter Event.ofCall)) (he : e.ofCall = true)
    (hc : c.events = draft ++ [e]) (hs : s'.sender = .idle) : Logged s' (es ++ [e]) := by
  refine ⟨[], by rw [hs]; exact .idle, ?_⟩
  rw [List.filter_append, List.filter_singleton, he, cond_true]
  exact hkept.close hc

theorem Logged.moved {s s' : Tx} {es es' : List Event} (h : Logged s es) (hm : Moved s s' es') :
    Logged s' (es ++ es') := by
  obtain ⟨draft, hdraft, hkept⟩ := id h
  cases hm with
  | call bytes hs =>
      rw [hs] at hdraft
      cases hdraft
      exact Logged.note hkept rfl (.head (k := 0) (Nat.zero_le _))
  | @ask bytes _ hs hoff =>
      rw [hs] at hdraft
      cases hdraft with
      | @head _ k hk =>
          have hlt : chunkSize * k < bytes.length := by omega
          rw [Nat.min_eq_left hlt.le]
          refine Logged.note hkept rfl ?_
          rw [List.append_nil]
          exact .acquire (lt_packetCount.mpr hlt)
  | @done bytes _ hs hoff =>
      rw [hs] at hdraft
      cases hdraft with
      | @head _ k hk =>
          have hwhole : k = packetCount bytes := by
            refine hk.antisymm (Nat.not_lt.mp fun hlt => ?_)
            have := lt_packetCount.mp hlt
            omega
          exact .close ⟨bytes, k, hk⟩ hkept rfl (Call.events_whole hwhole) rfl
  | acquired hs =>
      rw [hs] at hdraft
      cases hdraft with
      | acquire hk =>
          refine Logged.note hkept rfl ?_
          rw [List.append_nil]
          exact .send hk
  | @hand bytes _ hs =>
      rw [hs] at hdraft
      cases hdraft with
      | @send _ k hk =>
          rw [chunk_eq]
          refine Logged.note hkept rfl ?_
          have hbegun : begun bytes k ++ [.handed (packet bytes k)] = begun bytes (k + 1) := by
            rw [begun, begun, packets_succ, List.map_append]
            rfl
          rw [hbegun, ← Nat.mul_succ]
          exact .head hk
  | @giveUp bytes _ _ hs =>
      rw [hs] at hdraft
      cases hdraft with
      | @acquire _ k _ hk =>
          exact .close ⟨bytes, k, hk.le⟩ hkept rfl (Call.events_cut hk) rfl
  | take => exact h.still rfl rfl
  | tick => exact h.still rfl rfl

/-- What holds of every state of every run. -/
structure Inv (s : Tx) (es : List Event) : Prop where
  paced : Paced s
  conveyed : Conveyed s es
  timed : Timed s
  logged : Logged s es

theorem inv_initial : Inv .initial [] where
  paced := paced_initial
  conveyed := ⟨fun _ => List.not_mem_nil, rfl⟩
  timed := timed_initial
  logged := logged_initial

theorem Inv.moved {s s' : Tx} {es es' : List Event} (h : Inv s es) (hm : Moved s s' es') :
    Inv s' (es ++ es') where
  paced := h.paced.moved hm
  conveyed := h.conveyed.moved h.paced hm
  timed := h.timed.moved hm
  logged := h.logged.moved hm

theorem run_inv {ls : List Label} {s : Tx} {es : List Event}
    (h : machine.run .initial ls = some (s, es)) : Inv s es :=
  machine.run_events (P := Inv) (fun hi hs => hi.moved (step_moved hi.paced hs)) inv_initial h

/-- In every run, no packet is handed over before the host has taken the one before it,
the host takes the packets in order, and `cdc_send_all` handles its calls one after the
other: each is sent whole, in packets of 64 bytes, or its first packets are and the rest
is cut off. -/
theorem sent_packet_by_packet {ls : List Label} {s : Tx} {es : List Event}
    (h : machine.run .initial ls = some (s, es)) :
    (∀ p, .overrun p ∉ es) ∧ tookOf es ++ s.inEndpoint = handedOf es ∧
      ∃ (calls : List Call) (draft : List Event), Progress s.sender draft ∧
        es.filter Event.ofCall = calls.flatMap Call.events ++ draft := by
  obtain ⟨-, ⟨hsafe, horder⟩, -, draft, hdraft, calls, hcalls⟩ := run_inv h
  exact ⟨hsafe, horder, calls, draft, hdraft, hcalls⟩

/-- A call that the host keeps waiting, and the next one. -/
def lateHost : List Label :=
  [.call (List.replicate 100 7), .main, .main, .main, .main] ++
    List.replicate cdcTxTimeoutMs .tick ++
    [.timeout, .txComplete, .call [1, 2], .main, .main, .main, .main]

theorem sent_packet_by_packet_late :
    ∃ s es, machine.run .initial lateHost = some (s, es) ∧ .cut ∈ es ∧
      (∀ p, .overrun p ∉ es) ∧ tookOf es ++ s.inEndpoint = handedOf es ∧
      ∃ (calls : List Call) (draft : List Event), Progress s.sender draft ∧
        es.filter Event.ofCall = calls.flatMap Call.events ++ draft := by
  obtain ⟨⟨s, es⟩, hr, hcut⟩ := Option.map_eq_some_iff.mp
    (show (machine.run .initial lateHost).map (fun r => decide (.cut ∈ r.2)) = some true by
      decide +kernel)
  exact ⟨s, es, hr, of_decide_eq_true hcut, sent_packet_by_packet hr⟩

/-! ## A host that reads in time -/

/-- The packet in the endpoint has been there for less than 500 ms. -/
def Prompt (s : Tx) (_ : Label) : Prop :=
  s.endpoint.elim True fun e => s.clock < e.2 + cdcTxTimeoutMs

instance (s : Tx) (l : Label) : Decidable (Prompt s l) := by
  unfold Prompt
  cases s.endpoint with
  | none => exact .isTrue trivial
  | some e => exact Nat.decLt ..

theorem Prompt.not_cut {s s' : Tx} {l : Label} {es : List Event} (h : Prompt s l) (hp : Paced s)
    (ht : Timed s) (hm : Moved s s' es) : .cut ∉ es := by
  cases hm with
  | @giveUp bytes off deadline hs hn hlate =>
      exfalso
      obtain ⟨n, hn', hone⟩ := hp
      cases hn.symm.trans hn'
      cases he : s.endpoint with
      | none =>
          rw [hs, Tx.inFlight, he] at hone
          simp [Sender.credit] at hone
      | some e =>
          rw [Prompt, he] at h
          have hwaits := ht.waits hs he
          simp only [Option.elim] at h
          omega
  | _ => simp

theorem run_uncut {ls : List Label} {s : Tx} {es : List Event}
    (hg : machine.Guarded Prompt .initial ls) (h : machine.run .initial ls = some (s, es)) :
    Inv s es ∧ .cut ∉ es := by
  refine machine.run_guarded_events (P := fun s es => Inv s es ∧ .cut ∉ es)
    (fun ⟨hi, hcut⟩ hg hs => ?_) ⟨inv_initial, List.not_mem_nil⟩ hg h
  have hm := step_moved hi.paced hs
  refine ⟨hi.moved hm, fun hmem => ?_⟩
  exact (List.mem_append.mp hmem).elim hcut (hg.not_cut hi.paced hi.timed hm)

theorem handedOf_packets (ps : List (List UInt8)) : handedOf (ps.map .handed) = ps := by
  induction ps with
  | nil => rfl
  | cons p ps ih => exact congrArg (p :: ·) ih

theorem calledOf_packets (ps : List (List UInt8)) : calledOf (ps.map .handed) = [] := by
  induction ps with
  | nil => rfl
  | cons p ps ih => exact ih

@[simp] theorem handedOf_begun (bytes : List UInt8) (n : Nat) :
    handedOf (begun bytes n) = packets bytes n := handedOf_packets _

@[simp] theorem calledOf_begun (bytes : List UInt8) (n : Nat) :
    calledOf (begun bytes n) = [bytes] :=
  congrArg (bytes :: ·) (calledOf_packets _)

theorem handedOf_append (es es' : List Event) :
    handedOf (es ++ es') = handedOf es ++ handedOf es' := List.filterMap_append

theorem calledOf_append (es es' : List Event) :
    calledOf (es ++ es') = calledOf es ++ calledOf es' := List.filterMap_append

theorem handedOf_ofCall (es : List Event) : handedOf (es.filter Event.ofCall) = handedOf es := by
  rw [handedOf, List.filterMap_filter]
  refine List.filterMap_congr fun e _ => ?_
  cases e <;> rfl

theorem calledOf_ofCall (es : List Event) : calledOf (es.filter Event.ofCall) = calledOf es := by
  rw [calledOf, List.filterMap_filter]
  refine List.filterMap_congr fun e _ => ?_
  cases e <;> rfl

/-- A call that was not cut handed over all its bytes. -/
theorem Call.uncut {c : Call} (h : .cut ∉ c.events) :
    (handedOf c.events).flatten = c.bytes ∧ calledOf c.events = [c.bytes] := by
  rcases c.within.lt_or_eq with hlt | hwhole
  · rw [events_cut hlt] at h
    exact absurd (List.mem_append_right _ (List.mem_singleton_self _)) h
  · rw [events_whole hwhole, handedOf_append, calledOf_append, handedOf_begun, calledOf_begun,
      hwhole]
    exact ⟨by rw [List.flatten_append, flatten_packetCount]; exact List.append_nil _, rfl⟩

theorem uncut_calls : ∀ {calls : List Call}, .cut ∉ calls.flatMap Call.events →
    (handedOf (calls.flatMap Call.events)).flatten
      = (calledOf (calls.flatMap Call.events)).flatten
  | [], _ => rfl
  | c :: calls, h => by
      rw [List.flatMap_cons] at h ⊢
      obtain ⟨hc, hcalls⟩ := not_or.mp (mt List.mem_append.mpr h)
      obtain ⟨hhanded, hcalled⟩ := Call.uncut hc
      rw [handedOf_append, calledOf_append, List.flatten_append, List.flatten_append, hhanded,
        hcalled, List.flatten_singleton, uncut_calls hcalls]

/-- Where no call was cut, the packets are the bytes of the calls, and all of them between
two calls. -/
theorem Logged.uncut {s : Tx} {es : List Event} (h : Logged s es) (hcut : .cut ∉ es) :
    (handedOf es).flatten <+: (calledOf es).flatten ∧
      (s.sender = .idle → (handedOf es).flatten = (calledOf es).flatten) := by
  obtain ⟨draft, hdraft, calls, hcalls⟩ := h
  have hno : .cut ∉ calls.flatMap Call.events := fun hmem =>
    hcut (List.mem_of_mem_filter (hcalls ▸ List.mem_append_left _ hmem))
  rw [← handedOf_ofCall, ← calledOf_ofCall, hcalls, handedOf_append, calledOf_append,
    List.flatten_append, List.flatten_append, uncut_calls hno]
  constructor
  · refine (List.prefix_append_right_inj _).mpr ?_
    generalize s.sender = sender at hdraft
    cases hdraft with
    | idle => exact List.nil_prefix
    | head | acquire | send =>
        rw [handedOf_begun, calledOf_begun, flatten_packets, List.flatten_singleton]
        exact List.take_prefix ..
  · intro hs
    rw [hs] at hdraft
    cases hdraft
    rfl

/-- Where the host leaves no packet in the endpoint for 500 ms, no frame is cut, and what the
host decodes are the frames sent, in order, all of them between two calls when the endpoint
is empty. -/
theorem prompt_host_reads_all {ls : List Label} {s : Tx} {es : List Event} {fs : List Frame}
    (h : machine.run .initial ls = some (s, es)) (hprompt : machine.Guarded Prompt .initial ls)
    (hfs : ∀ f ∈ fs, f.payload.length ≤ 0xFFFF) (hcalled : calledOf es = fs.map Frame.wire) :
    .cut ∉ es ∧ (codec.drain (tookOf es).flatten).1 <+: fs ∧
      (s.sender = .idle → s.endpoint = none → (codec.drain (tookOf es).flatten).1 = fs) := by
  obtain ⟨⟨-, ⟨-, horder⟩, -, hlogged⟩, hcut⟩ := run_uncut hprompt h
  obtain ⟨hfront, hall⟩ := hlogged.uncut hcut
  have hwires : (calledOf es).flatten = fs.flatMap Frame.wire := by
    rw [hcalled, List.flatMap]
  have hframes : (codec.drain (fs.flatMap Frame.wire)).1 = fs := by
    have := codec_drain_wires hfs []
    rwa [List.append_nil, show (codec.drain []).1 = [] from rfl, List.append_nil] at this
  refine ⟨hcut, ?_, fun hs he => ?_⟩
  · have htook : (tookOf es).flatten <+: (handedOf es).flatten := by
      rw [← horder, List.flatten_append]
      exact List.prefix_append _ _
    obtain ⟨rest, hrest⟩ := htook.trans hfront
    rw [hwires] at hrest
    rw [← hframes, ← hrest, codec.drain_append]
    exact List.prefix_append _ _
  · rw [Tx.inEndpoint, he, Option.elim, List.append_nil] at horder
    rw [horder, hall hs, hwires, hframes]

def pong (seq : UInt16) : Frame := { typ := .pong, flags := 0, seq, payload := [7] }

/-- The host reads the first PONG while the second waits for the credit. -/
def readInTime : List Label :=
  [.call (pong 1).wire, .main, .main, .main, .main, .tick, .call (pong 2).wire, .main, .tick,
    .txComplete, .main, .main, .main, .tick, .txComplete]

theorem prompt_host_reads_all_late :
    ∃ s es, machine.run .initial readInTime = some (s, es) ∧ .cut ∉ es ∧
      (codec.drain (tookOf es).flatten).1 <+: [pong 1, pong 2] ∧
      (s.sender = .idle → s.endpoint = none →
        (codec.drain (tookOf es).flatten).1 = [pong 1, pong 2]) := by
  obtain ⟨⟨s, es⟩, hr, hcalled⟩ := Option.map_eq_some_iff.mp
    (show (machine.run .initial readInTime).map
        (fun r => decide (calledOf r.2 = [pong 1, pong 2].map Frame.wire)) = some true by
      decide +kernel)
  exact ⟨s, es, hr, prompt_host_reads_all hr (by decide +kernel) (by decide +kernel)
    (of_decide_eq_true hcalled)⟩

end FlipLink.TxCredit

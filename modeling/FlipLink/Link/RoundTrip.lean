/-
# `FlipLink.Link.RoundTrip` — what a call returns is what was said for it

A call of the client library and the daemon, side by side, with the bytes on the socket
between them.  The daemon serves its other clients and the device as it likes.

    toDaemon    what the call has written; the thread of its connection reads it
    toClient    what that thread has written; the loop of the call reads it

The socket keeps the order of the bytes and makes none up.  A write to the client that
fails may have written a part of its frame, and nothing is written behind it.  The thread
sees the end of the connection when the call is over and has been heard out.

So the call is heard as one frame (`Joined.up`), what it reads is what it has been told
(`Joined.down`), and the frame that it takes is about its own request (`About`).
-/
import FlipLink.Client.Requests
import FlipLink.Daemon.OneRequest
import FlipLink.Daemon.Sizes
import FlipLink.Link.Bridge

namespace FlipLink.RoundTrip

open Lib DaemonClient
open Daemon (Thread Phase Need Turn Request Exchange Draft heard conversation)
open Bridge (take)

/-! ## The machine -/

structure State where
  daemon : Daemon.State
  toDaemon : List UInt8
  toClient : List UInt8
  wait : Wait

inductive Label where
  /-- A step of the daemon.  If it is a write to the client that fails, `part` says how much
  has been written. -/
  | daemon (l : Daemon.Label) (part : Nat)
  /-- A turn of the loop that waits. -/
  | call (late : Bool) (read : Except String Nat)

/-- The size of `scratch`, in `serve_client` and in the relay. -/
def scratchSize : Nat := 1024

def Wait.isOver : Wait → Bool
  | .waiting _ => false
  | .over _ => true

section Machine

variable (i : Nat)

/-- What a step of the daemon leaves of the bytes for the thread. -/
def unread (s : State) : Daemon.Label → Option (List UInt8)
  | .client j (.read (.data bytes)) =>
      if j = i then
        if bytes = [] then none else take scratchSize bytes s.toDaemon
      else some s.toDaemon
  | .client j (.read .eof) =>
      if j = i then
        if Wait.isOver s.wait ∧ s.toDaemon = [] then some [] else none
      else some s.toDaemon
  | _ => some s.toDaemon

/-- The frame that an event writes to the client. -/
def toldFrame : Daemon.Event → Option Frame
  | .wrote j _ typ seq payload => if j = i then some ⟨typ, 0, seq, payload⟩ else none
  | _ => none

/-- What a write that fails leaves on the socket: less than its frame. -/
def brokenOff (part : Nat) : Need → Daemon.ClientInput → List UInt8
  | .write _ typ seq payload, .wrote false =>
      ((frameBytes typ 0 seq payload).getD []).dropLast.take part
  | _, _ => []

def cutShort (d : Daemon.State) (part : Nat) : Daemon.Label → List UInt8
  | .client j inp =>
      if j = i then brokenOff part ((d.threads i).phase.need agentErrorBody) inp else []
  | _ => []

def step (c : Call) (s : State) : Label → Option (State × List Daemon.Event)
  | .daemon l part =>
      match unread i s l, Daemon.step agentErrorBody s.daemon l with
      | some toDaemon, some (daemon, es) =>
          some ({ s with
            daemon, toDaemon
            toClient := s.toClient ++ (((es.filterMap (toldFrame i)).flatMap fun f =>
              (frameBytes f.typ f.flags f.seq f.payload).getD []) ++
                cutShort i s.daemon part l) }, es)
      | _, _ => none
  | .call late read =>
      match s.wait with
      | .waiting reader =>
          some ({ s with
            wait := (c.turn late read s.toClient reader).1
            toClient := (c.turn late read s.toClient reader).2 }, [])
      | .over _ => none

def machine (c : Call) : Machine State Label Daemon.Event where
  step := step i c

end Machine

/-- The call has connected and written its frame. -/
def start (bytes : List UInt8) : State where
  daemon := .initial
  toDaemon := bytes
  toClient := []
  wait := .waiting .new

/-- What the daemon does in a run of the two. -/
def daemonLabels (ls : List Label) : List Daemon.Label :=
  ls.filterMap fun
    | .daemon l _ => some l
    | .call .. => none

/-! ## What a client can be told -/

/-- A frame told to the client is an answer to the frame `F`, and to no other. -/
inductive About (F : Frame) (ts : List Turn) : Turn → Prop
  | caps {payload} (hello : F.typ = .hello) (cached : payload ≠ []) :
      About F ts (.tell .hello .caps F.seq payload)
  | noDevice (hello : F.typ = .hello) :
      About F ts (.tell .hello .error F.seq (agentErrorBody errInternal "device not connected"))
  | device (r : Request) (g : Frame) (mine : r.frame = F) (sent : .queue r.item ∈ ts) :
      About F ts (r.relays g)
  | timeout (r : Request) (mine : r.frame = F) :
      About F ts
        (.tell (.timeout r.ticket) .error F.seq (agentErrorBody errInternal "device timeout"))
  | stopTimeout (r : Request) (mine : r.frame = F) :
      About F ts (.tell (.stopTimeout r.ticket) .error F.seq
        (agentErrorBody errInternal "device timeout waiting for stream stop"))

theorem stream_about {s : Daemon.Stream} {ts : List Turn} (hsent : .queue s.request.item ∈ ts) :
    ∀ t ∈ s.turns, t.isTell = true → About s.request.frame ts t := by
  intro t ht htell
  rcases List.mem_append.mp ht with ht | ht
  · rcases List.mem_cons.mp ht with rfl | ht
    · cases htell
    · cases List.mem_singleton.mp ht
      cases htell
  · rcases List.mem_cons.mp ht with rfl | ht
    · exact .device _ _ rfl hsent
    · rcases s.follows t ht with rfl | ⟨g, -, rfl⟩
      · cases htell
      · exact .device _ _ rfl hsent

theorem request_sent (r : Request) : .queue r.item ∈ r.turns :=
  List.mem_cons_of_mem _ (List.mem_singleton_self _)

theorem stream_sent (s : Daemon.Stream) : .queue s.request.item ∈ s.turns :=
  List.mem_append_left _ (request_sent s.request)

theorem request_about (r : Request) {ts : List Turn} :
    ∀ t ∈ r.turns, t.isTell = true → About r.frame ts t := by
  intro t ht htell
  rcases List.mem_cons.mp ht with rfl | ht
  · cases htell
  · cases List.mem_singleton.mp ht
    cases htell

/-- All that is told in an exchange is about its frame. -/
theorem exchange_about : ∀ (x : Exchange) {t : Turn}, t ∈ x.turns agentErrorBody →
    t.isTell = true → About x.frame (x.turns agentErrorBody) t
  | .caps f payload hello cached, t, ht, htell => by
      rcases List.mem_cons.mp ht with rfl | ht
      · cases htell
      · cases List.mem_singleton.mp ht
        exact .caps hello cached
  | .noDevice f hello, t, ht, htell => by
      rcases List.mem_cons.mp ht with rfl | ht
      · cases htell
      · cases List.mem_singleton.mp ht
        exact .noDevice hello
  | .reply r g _, t, ht, htell => by
      rcases List.mem_append.mp ht with ht | ht
      · exact request_about r t ht htell
      · cases List.mem_singleton.mp ht
        exact .device r g rfl (List.mem_append_left _ (request_sent r))
  | .timeout r, t, ht, htell => by
      rcases List.mem_append.mp ht with ht | ht
      · exact request_about r t ht htell
      · cases List.mem_singleton.mp ht
        exact .timeout r rfl
  | .stopped s g _, t, ht, htell => by
      have hsent : .queue s.request.item ∈ (Exchange.stopped s g ‹_›).turns agentErrorBody :=
        List.mem_append_left _ (stream_sent s)
      rcases List.mem_append.mp ht with ht | ht
      · exact stream_about hsent t ht htell
      · cases List.mem_singleton.mp ht
        exact .device _ g rfl hsent
  | .stopTimeout s _, t, ht, htell => by
      rcases List.mem_append.mp ht with ht | ht
      · exact stream_about (List.mem_append_left _ (stream_sent s)) t ht htell
      · cases List.mem_singleton.mp ht
        exact .stopTimeout _ rfl
  | .hungUp s, t, ht, htell => by
      rcases List.mem_append.mp ht with ht | ht
      · exact stream_about (List.mem_append_left _ (stream_sent s)) t ht htell
      · rcases List.mem_cons.mp ht with rfl | ht
        · cases htell
        · cases List.mem_singleton.mp ht
          cases htell

theorem draft_about : ∀ (d : Draft) {t : Turn}, t ∈ d.turns → t.isTell = true →
    ∃ f, d.frame = some f ∧ About f d.turns t
  | .asked f, t, ht, htell => by
      cases List.mem_singleton.mp ht
      cases htell
  | .sent r, t, ht, htell => ⟨_, rfl, request_about r t ht htell⟩
  | .streaming s, t, ht, htell => ⟨_, rfl, stream_about (stream_sent s) t ht htell⟩
  | .hangingUp s, t, ht, htell => by
      rcases List.mem_append.mp ht with ht | ht
      · exact ⟨_, rfl, stream_about (List.mem_append_left _ (stream_sent s)) t ht htell⟩
      · cases List.mem_singleton.mp ht
        cases htell

/-! ## What the thread writes -/

section Writes

variable {i : Nat} {s s' : Daemon.State} {l : Daemon.Label} {es : List Daemon.Event}

/-- A write or a forward that fails ends the thread. -/
theorem resume_failed {eb : UInt32 → String → List UInt8} {t' : Thread} {now : Nat}
    {reader : FrameReader} {p : Phase}
    (hr : (⟨p, reader⟩ : Thread).resume eb now (.wrote false) = some t') : t'.phase = .closed := by
  cases p with
  | relay r p => cases p <;> cases hr <;> rfl
  | _ => cases hr <;> rfl

/-- A frame that is told can be framed, and so can one that is cut short; a thread tells
nothing once it has returned. -/
theorem step_told (part : Nat) (hsized : Daemon.Sized s)
    (hs : Daemon.step agentErrorBody s l = some (s', es)) :
    (es.filterMap (toldFrame i) = [] ∧ cutShort i s part l = []) ∨
    (s.threads i).phase ≠ .closed ∧
      ((∃ f : Frame, es.filterMap (toldFrame i) = [f] ∧ f.flags = 0 ∧ f.payload.length ≤ 0xFFFF ∧
          cutShort i s part l = []) ∨
        (es.filterMap (toldFrame i) = [] ∧ (s'.threads i).phase = .closed ∧
          ∃ (f : Frame) (k : Nat), f.payload.length ≤ 0xFFFF ∧ k < f.payload.length + 13 ∧
            cutShort i s part l = f.wire.take k)) := by
  cases l with
  | tick ms => cases hs; exact .inl ⟨rfl, rfl⟩
  | owner inp =>
      obtain ⟨s₁, o, hm, rfl⟩ := Daemon.ownerStep_moves hs
      refine .inl ⟨List.filterMap_eq_nil_iff.mpr fun e he => ?_, rfl⟩
      cases e with
      | wrote => exact absurd he hm.wrote
      | _ => rfl
  | client j inp =>
      obtain ⟨a, s₁, t, -, hserved, hr, rfl⟩ := Daemon.clientStep_cases hs
      rcases eq_or_ne j i with rfl | hj
      · have hfits : ∀ {about typ seq payload},
            (s.threads j).phase.need agentErrorBody = .write about typ seq payload →
              payload.length ≤ 0xFFFF := fun hn =>
          Daemon.Phase.need_fits (hsized.asks j) (hsized.held j) (hsized.greets j)
            (congrArg Need.payload hn)
        have hopen : (s.threads j).phase ≠ .closed := fun hc => hserved.open.1 (by rw [hc]; rfl)
        have hclosed : a = .wrote false → t.phase = .closed := fun ha => resume_failed (ha ▸ hr)
        rw [Daemon.State.setThread_self]
        rw [cutShort, if_pos rfl]
        generalize (s.threads j).phase.need agentErrorBody = n at hserved hfits
        cases hserved with
        | @wrote about typ seq payload =>
            refine .inr ⟨hopen, .inl ⟨⟨typ, 0, seq, payload⟩, ?_, rfl, hfits rfl, rfl⟩⟩
            rw [List.filterMap_cons, toldFrame, if_pos rfl]
            rfl
        | @failed about typ seq payload =>
            have hle := hfits rfl
            refine .inr ⟨hopen, .inr ⟨rfl, hclosed rfl, ⟨typ, 0, seq, payload⟩,
              min part (payload.length + 12), hle, ?_, ?_⟩⟩
            · show min part (payload.length + 12) < payload.length + 13
              omega
            · rw [brokenOff, frameBytes_eq _ _ _ hle, Option.getD_some, List.dropLast_eq_take,
                List.take_take, length_wire]
              rfl
        | _ => exact .inl ⟨rfl, rfl⟩
      · refine .inl ⟨?_, if_neg hj⟩
        generalize (s.threads j).phase.need agentErrorBody = n at hserved
        cases hserved with
        | wrote => rw [List.filterMap_cons, toldFrame, if_neg hj]; rfl
        | _ => rfl

end Writes

/-! ## The two joined -/

section Joined

variable {i : Nat} {c : Call} {F : Frame}

/-- What the thread has written to the client, and a frame cut short behind it if it has
returned. -/
structure Downstream (i : Nat) (d : Daemon.State) (es : List Daemon.Event) (bytes : List UInt8) :
    Prop where
  sizes : ∀ f ∈ es.filterMap (toldFrame i), f.payload.length ≤ 0xFFFF
  bytes : ∃ tail, bytes = (es.filterMap (toldFrame i)).flatMap Frame.wire ++ tail ∧
    (tail ≠ [] → (d.threads i).phase = .closed ∧
      ∃ (f : Frame) (k : Nat), f.payload.length ≤ 0xFFFF ∧ k < f.payload.length + 13 ∧
        tail = f.wire.take k)

/-- A run of the two, from where the call has written the frame `F`. -/
structure Joined (i : Nat) (c : Call) (F : Frame) (s : State) (ls : List Label)
    (es : List Daemon.Event) : Prop where
  run : (Daemon.machine agentErrorBody).run .initial (daemonLabels ls) = some (s.daemon, es)
  up : heard agentErrorBody i (daemonLabels ls) ++ s.toDaemon = F.wire
  down : ∃ got, Downstream i s.daemon es (got ++ s.toClient) ∧ Awaited c got s.wait

theorem Joined.start : Joined i c F (start F.wire) [] [] where
  run := rfl
  up := rfl
  down := ⟨[], ⟨fun _ h => (by cases h), [], rfl, fun h => absurd rfl h⟩, Awaited.new c⟩

/-- The thread writes on. -/
theorem Downstream.step {d d' : Daemon.State} {l : Daemon.Label} {es es' : List Daemon.Event}
    {bytes : List UInt8} (h : Downstream i d es bytes) (part : Nat) (hsized : Daemon.Sized d)
    (hs : Daemon.step agentErrorBody d l = some (d', es')) :
    Downstream i d' (es ++ es') (bytes ++ (((es'.filterMap (toldFrame i)).flatMap fun f =>
      (frameBytes f.typ f.flags f.seq f.payload).getD []) ++ cutShort i d part l)) := by
  obtain ⟨hsizes, tail, rfl, htail⟩ := h
  rcases step_told (i := i) part hsized hs with
    ⟨htold, hcut⟩ | ⟨hopen, ⟨f, htold, hflags, hle, hcut⟩ | ⟨htold, hclosed, f, k, hle, hk, hcut⟩⟩
  · refine ⟨?_, tail, ?_, fun h => ⟨Daemon.closed_step (htail h).1 hs, (htail h).2⟩⟩
    · rwa [List.filterMap_append, htold, List.append_nil]
    · rw [List.filterMap_append, htold, hcut]
      simp
  · have hnil : tail = [] := by
      by_contra h
      exact hopen (htail h).1
    refine ⟨?_, [], ?_, fun h => absurd rfl h⟩
    · rw [List.filterMap_append, htold]
      exact fun g hg => (List.mem_append.mp hg).elim (hsizes g) fun hg =>
        List.mem_singleton.mp hg ▸ hle
    · rw [List.filterMap_append, htold, hcut, hnil]
      simp [frameBytes_eq _ _ _ hle, Frame.wire]
  · have hnil : tail = [] := by
      by_contra h
      exact hopen (htail h).1
    refine ⟨?_, f.wire.take k, ?_, fun _ => ⟨hclosed, f, k, hle, hk, rfl⟩⟩
    · rwa [List.filterMap_append, htold, List.append_nil]
    · rw [List.filterMap_append, htold, hcut, hnil]
      simp

/-- A thread that has taken up the frame has read all of it. -/
theorem heard_all {d : Daemon.State} {ts : List Turn} {hb rest : List UInt8}
    (h : Daemon.Conversing agentErrorBody i d ts hb) (hF : F.payload.length ≤ 0xFFFF)
    (hall : hb ++ rest = F.wire) (hasked : ts.filterMap Turn.asked ≠ []) : rest = [] := by
  by_contra hrest
  have hlt : hb.length < F.payload.length + 13 := by
    have hlen := congrArg List.length hall
    rw [List.length_append, Frame.wire, length_wire] at hlen
    have := List.length_pos_iff.mpr hrest
    omega
  have hb' : hb = F.wire.take hb.length := by rw [← hall, List.take_left]
  have hnone := next_take_wire hF hlt
  rw [← hb'] at hnone
  have hframes := h.caught.reader.frames
  rw [codec.drain_of_none hnone] at hframes
  exact hasked (List.append_eq_nil_iff.mp hframes.symm).1

/-- A relay that reads has taken up a frame before. -/
theorem stands_asked {ts : List Turn} {d : Draft} {r : Daemon.Relay}
    (hkept : Kept (Exchange.turns agentErrorBody) d.turns ts)
    (h : Daemon.Stands agentErrorBody (.relay r .read) d) : ts.filterMap Turn.asked ≠ [] := by
  obtain ⟨xs, rfl⟩ := hkept
  rw [Daemon.kept_asked]
  cases h with
  | relay => exact List.append_ne_nil_of_right_ne_nil _ (List.cons_ne_nil _ _)

theorem unread_cases {s : State} {l : Daemon.Label} {toDaemon : List UInt8}
    (h : unread i s l = some toDaemon) :
    (toDaemon = s.toDaemon ∧ ∀ bytes, l ≠ .client i (.read (.data bytes))) ∨
      ∃ bytes, l = .client i (.read (.data bytes)) ∧ bytes ≠ [] ∧
        s.toDaemon = bytes ++ toDaemon := by
  unfold unread at h
  split at h
  · rename_i j bytes
    split_ifs at h with hj hb
    · subst hj
      obtain ⟨⟨-, rest, hrest⟩, hdrop⟩ := Option.ite_none_right_eq_some.mp h
      cases hdrop
      rw [← hrest, List.drop_left]
      exact .inr ⟨bytes, rfl, hb, rfl⟩
    · cases h
      exact .inl ⟨rfl, fun _ hl => hj (by cases hl; rfl)⟩
  · split_ifs at h with hj hover
    · cases h
      exact .inl ⟨hover.2.symm, fun _ => nofun⟩
    · cases h
      exact .inl ⟨rfl, fun _ => nofun⟩
  · rename_i hno _
    cases h
    exact .inl ⟨rfl, fun bytes hl => hno i bytes hl⟩

/-- What is read off the socket is heard. -/
theorem heard_step {s : State} {d' : Daemon.State} {l : Daemon.Label} {es : List Daemon.Event}
    {ts : List Turn} {hb toDaemon : List UInt8}
    (h : Daemon.Conversing agentErrorBody i s.daemon ts hb) (hF : F.payload.length ≤ 0xFFFF)
    (hall : hb ++ s.toDaemon = F.wire) (hun : unread i s l = some toDaemon)
    (hs : Daemon.step agentErrorBody s.daemon l = some (d', es)) :
    (hb ++ Daemon.hears i s.daemon l d' es) ++ toDaemon = F.wire := by
  rcases unread_cases hun with ⟨rfl, hno⟩ | ⟨bytes, rfl, hbytes, hsplit⟩
  · have hnone : Daemon.hears i s.daemon l d' es = [] := by
      unfold Daemon.hears
      split
      · rename_i j inp
        split_ifs with hj
        · subst hj
          unfold Thread.hears
          split
          · exact absurd rfl (hno _)
          · rfl
        · rfl
      · rfl
    rwa [hnone, List.append_nil]
  · -- the thread reads in `serve_client`, for a relay has heard the whole frame before
    obtain ⟨a, s₁, t, -, hserved, -, rfl⟩ := Daemon.clientStep_cases hs
    have hhears : Daemon.hears i s.daemon (.client i (.read (.data bytes))) (s₁.setThread i t) es
        = (s.daemon.threads i).hears (.read (.data bytes)) := if_pos rfl
    obtain ⟨dr, hkept, hstands⟩ := h.kept
    rw [hhears]
    cases hp : (s.daemon.threads i).phase with
    | read =>
        have hread : (s.daemon.threads i).hears (.read (.data bytes)) = bytes := by
          simp [Thread.hears, hp]
        rw [hread, List.append_assoc, ← hsplit, hall]
    | relay r p =>
        cases p with
        | read =>
            rw [hp] at hstands
            have hnil := heard_all h hF hall (stands_asked hkept hstands)
            rw [hnil] at hsplit
            exact absurd (List.append_eq_nil_iff.mp hsplit.symm).1 hbytes
        | _ => rw [hp] at hserved; cases hserved
    | _ => rw [hp] at hserved; cases hserved

theorem Joined.step {s s' : State} {ls : List Label} {l : Label} {es es' : List Daemon.Event}
    (h : Joined i c F s ls es) (hF : F.payload.length ≤ 0xFFFF)
    (hs : (machine i c).step s l = some (s', es')) : Joined i c F s' (ls ++ [l]) (es ++ es') := by
  obtain ⟨hrun, hup, got, hdown, hawaited⟩ := h
  cases l with
  | daemon l part =>
      simp only [machine, RoundTrip.step] at hs
      split at hs
      · rename_i toDaemon d' es' hun hd
        cases hs
        have hls : daemonLabels (ls ++ [.daemon l part]) = daemonLabels ls ++ [l] :=
          List.filterMap_append
        have hone : (Daemon.machine agentErrorBody).run s.daemon [l] = some (d', es' ++ []) :=
          Machine.run_step hd rfl
        rw [List.append_nil] at hone
        refine ⟨hls ▸ Machine.run_append hrun hone, ?_, got, ?_, hawaited⟩
        · have hheard : heard agentErrorBody i (daemonLabels ls ++ [l])
              = heard agentErrorBody i (daemonLabels ls) ++ Daemon.hears i s.daemon l d' es' := by
            rw [heard, Machine.trace_append _ hrun, Machine.trace_cons hd]
            exact congrArg (_ ++ ·) (List.append_nil _)
          rw [hls, hheard]
          exact heard_step (Daemon.run_conversing hrun) hF hup hun hd
        · have hnext := hdown.step part (Daemon.run_sized hrun) hd
          rw [List.append_assoc] at hnext
          exact hnext
      · exact nomatch hs
  | call late read =>
      simp only [machine, RoundTrip.step] at hs
      split at hs
      · rename_i reader hwait
        cases hs
        have hls : daemonLabels (ls ++ [.call late read]) = daemonLabels ls := by
          rw [daemonLabels, List.filterMap_append]
          exact List.append_nil _
        rw [hwait] at hawaited
        obtain ⟨more, hmore, hawaited⟩ :=
          hawaited.turn (show c.turn late read s.toClient reader = (_, _) from rfl)
        rw [hmore, ← List.append_assoc] at hdown
        rw [List.append_nil]
        exact ⟨hls ▸ hrun, hls ▸ hup, got ++ more, hdown, hawaited⟩
      · exact nomatch hs

theorem run_joined {s : State} {ls : List Label} {es : List Daemon.Event}
    (hF : F.payload.length ≤ 0xFFFF)
    (hr : (machine i c).run (RoundTrip.start F.wire) ls = some (s, es)) : Joined i c F s ls es :=
  Machine.run_induction (P := Joined i c F) (fun h hs => h.step hF hs) .start hr

/-- The frame that a call has taken was written to it. -/
theorem Joined.told {s : State} {ls : List Label} {es : List Daemon.Event} {f : Frame}
    (h : Joined i c F s ls es) (hover : s.wait = .over (.ok f)) :
    c.takes f = true ∧ ∃ about, .wrote i about f.typ f.seq f.payload ∈ es := by
  obtain ⟨-, -, got, ⟨hsizes, tail, hbytes, htail⟩, hawaited⟩ := h
  rw [hover] at hawaited
  have hfind : (codec.drain got).1.find? c.takes = some f := hawaited
  have hnil : (codec.drain tail).1 = [] := by
    by_cases ht : tail = []
    · rw [ht]
      rfl
    · obtain ⟨-, g, k, hle, hk, rfl⟩ := htail ht
      rw [codec.drain_of_none (next_take_wire hle hk)]
  -- what has been read is the front of what has been written
  have hframes : (codec.drain (got ++ s.toClient)).1 = _ :=
    congrArg (fun bytes => (codec.drain bytes).1) hbytes
  rw [codec.drain_append, codec_drain_wires hsizes, hnil, List.append_nil] at hframes
  have hf : f ∈ es.filterMap (toldFrame i) :=
    hframes ▸ List.mem_append_left _ (List.mem_of_find?_eq_some hfind)
  obtain ⟨e, he, hef⟩ := List.mem_filterMap.mp hf
  refine ⟨List.find?_some (p := fun f => c.takes f) hfind, ?_⟩
  cases e with
  | wrote j about typ seq payload =>
      obtain ⟨rfl, hfe⟩ := Option.ite_none_right_eq_some.mp hef
      cases hfe
      exact ⟨about, he⟩
  | _ => exact nomatch hef

theorem About.mono {ts ts' : List Turn} {t : Turn} (hsub : ∀ u ∈ ts, u ∈ ts') (h : About F ts t) :
    About F ts' t := by
  cases h with
  | caps hello cached => exact .caps hello cached
  | noDevice hello => exact .noDevice hello
  | device r g mine sent => exact .device r g mine (hsub _ sent)
  | timeout r mine => exact .timeout r mine
  | stopTimeout r mine => exact .stopTimeout r mine

/-- The thread has taken up the frame of the call, or nothing yet. -/
theorem Joined.asked {s : State} {ls : List Label} {es : List Daemon.Event}
    (h : Joined i c F s ls es) (hF : F.payload.length ≤ 0xFFFF) :
    (conversation agentErrorBody i (daemonLabels ls)).filterMap Turn.asked <+: [F] := by
  have hdrain : (codec.drain F.wire).1 = [F] := by
    have hsome := congrArg Prod.fst (codec.drain_of_some (next_wire hF []))
    rw [List.append_nil] at hsome
    exact hsome
  rw [← hdrain, ← h.up, codec.drain_append,
    (Daemon.run_conversing (i := i) h.run).caught.reader.frames, List.append_assoc]
  exact List.prefix_append ..

/-- All that the client is told is about the frame of the call. -/
theorem Joined.about {s : State} {ls : List Label} {es : List Daemon.Event}
    (h : Joined i c F s ls es) (hF : F.payload.length ≤ 0xFFFF) {about : Daemon.Source}
    {typ : MsgType} {seq : UInt16} {payload : List UInt8}
    (he : .wrote i about typ seq payload ∈ es) :
    About F (conversation agentErrorBody i (daemonLabels ls)) (.tell about typ seq payload) := by
  have hasked := h.asked hF
  have htell : .tell about typ seq payload
      ∈ (conversation agentErrorBody i (daemonLabels ls)).filter Turn.isTell := by
    rw [Daemon.conversation_tells h.run]
    exact List.mem_filterMap.mpr ⟨_, he, if_pos rfl⟩
  obtain ⟨⟨d, ⟨xs, hkept⟩, -⟩, -⟩ := Daemon.run_conversing (i := i) h.run
  rw [hkept] at htell hasked ⊢
  rw [Daemon.kept_asked] at hasked
  obtain ⟨hmem, htrue⟩ := List.mem_filter.mp htell
  have hframe : ∀ g, g ∈ xs.map Exchange.frame ++ d.frame.toList → g = F := fun g hg =>
    List.mem_singleton.mp (hasked.subset hg)
  rcases List.mem_append.mp hmem with hmem | hmem
  · obtain ⟨x, hx, hmem⟩ := List.mem_flatMap.mp hmem
    rw [← hframe x.frame (List.mem_append_left _ (List.mem_map_of_mem hx))]
    exact (exchange_about x hmem htrue).mono fun u hu =>
      List.mem_append_left _ (List.mem_flatMap.mpr ⟨x, hx, hu⟩)
  · obtain ⟨f, hf, habout⟩ := draft_about d hmem htrue
    rw [← hframe f (List.mem_append_right _ (by rw [hf]; exact List.mem_singleton_self _))]
    exact habout.mono fun u hu => List.mem_append_right _ hu

end Joined

/-! ## The CAPS that a client is greeted with -/

/-- The device has said this in a CAPS frame. -/
def Said (es : List Daemon.Event) (payload : List UInt8) : Prop :=
  ∃ g : Frame, .arrived g ∈ es ∧ g.typ = .caps ∧ g.payload = payload

theorem Said.mono {es : List Daemon.Event} {payload : List UInt8} (h : Said es payload)
    (es' : List Daemon.Event) : Said (es ++ es') payload := by
  obtain ⟨g, hg, ht, hp⟩ := h
  exact ⟨g, List.mem_append_left _ hg, ht, hp⟩

/-- What the owner is about to cache. -/
def caches : Daemon.Owner → List UInt8
  | .cache payload => payload
  | _ => []

theorem failed_caches (n now : Nat) : caches (Daemon.Owner.failed n now) = [] := by
  unfold Daemon.Owner.failed
  split_ifs <;> rfl

/-- All CAPS that are cached or passed on are the device's. -/
structure Known (s : Daemon.State) (es : List Daemon.Event) : Prop where
  cached : s.router.capsPayload ≠ [] → Said es s.router.capsPayload
  caching : caches s.owner ≠ [] → Said es (caches s.owner)
  greets : ∀ i seq payload, (s.threads i).phase = .helloWrite .caps seq payload → Said es payload
  told : ∀ i seq payload, .wrote i .hello .caps seq payload ∈ es → Said es payload

/-- The owner comes to cache the body of a CAPS frame that it sees in the handshake. -/
theorem resume_caches {o o' : Daemon.Owner} {now : Nat} {a : Daemon.Owner.Answer}
    (hr : o.resume now a = some o') (hc : caches o' ≠ []) :
    ∃ n reader deadline f, o = .see n reader deadline f ∧ f.typ = .caps ∧
      f.payload = caches o' := by
  unfold Daemon.Owner.resume at hr
  split at hr
  case h_5 =>
    cases hr
    split_ifs at hc ⊢ with ht
    · exact ⟨_, _, _, _, rfl, ht, rfl⟩
    · exact absurd rfl hc
  all_goals
    refine absurd ?_ hc
    first
      | (cases hr; rfl)
      | (cases hr; split_ifs <;> first | rfl | exact failed_caches _ _)
      | (split at hr <;> cases hr <;> first
          | rfl
          | (split_ifs <;> first | rfl | exact failed_caches _ _))
      | (cases hr; exact failed_caches _ _)
      | cases hr

/-- A thread comes to greet with CAPS by reading them from the cache. -/
theorem resume_helloWrite {eb : UInt32 → String → List UInt8} {t' : Thread} {now : Nat}
    {a : Daemon.Answer} {reader : FrameReader} {seq : UInt16} {payload : List UInt8} {p : Phase}
    (hr : (⟨p, reader⟩ : Thread).resume eb now a = some t')
    (hp : t'.phase = .helloWrite .caps seq payload) :
    p = .caps seq ∧ a = .caps payload ∧ payload ≠ [] := by
  unfold Thread.resume at hr
  dsimp only at hr
  split at hr
  case h_7 =>
    cases hr
    dsimp only at hp
    split_ifs at hp with hnil
    · cases hp
    · cases hp
      exact ⟨rfl, rfl, fun h => hnil (List.isEmpty_iff.mpr h)⟩
  all_goals first
    | (cases hr; done)
    | (cases hr; cases hp)
    | (cases hr; dsimp only at hp; split_ifs at hp)
    | (split at hr <;> cases hr <;> dsimp only at hp <;> (try split_ifs at hp) <;> cases hp)

theorem Known.step {s s' : Daemon.State} {l : Daemon.Label} {es es' : List Daemon.Event}
    (h : Known s es) (hs : Daemon.step agentErrorBody s l = some (s', es')) :
    Known s' (es ++ es') := by
  cases l with
  | tick ms =>
      cases hs
      rw [List.append_nil]
      exact ⟨h.cached, h.caching, h.greets, h.told⟩
  | owner inp =>
      obtain ⟨a, s₁, o, -, howned, hr, rfl⟩ := Daemon.ownerStep_cases hs
      have hm := Daemon.owner_moves howned hr
      refine ⟨fun hc => ?_, fun hc => ?_, fun i seq payload hp => ?_, fun i seq payload he => ?_⟩
      · by_cases hset : ∃ payload, s.owner.need = .setCaps payload
        · obtain ⟨payload, hset⟩ := hset
          rcases Daemon.need_setCaps hset with ⟨caps, ho⟩ | ho
          · rw [ho] at howned
            cases howned
            have hc' : caches s.owner ≠ [] := by rw [ho]; exact hc
            have hsaid := (h.caching hc').mono []
            rw [ho] at hsaid
            exact hsaid
          · rw [ho] at howned
            cases howned
            exact absurd rfl hc
        · have hkeep : s₁.router.capsPayload = s.router.capsPayload :=
            howned.capsPayload fun payload hn => hset ⟨payload, hn⟩
          exact hkeep ▸ (h.cached (hkeep ▸ hc)).mono _
      · obtain ⟨n, reader, deadline, f, ho, ht, hf⟩ := resume_caches hr hc
        rw [ho] at howned
        cases howned
        exact ⟨f, List.mem_append_right _ (List.mem_singleton_self _), ht, hf⟩
      · exact (h.greets i seq payload (hm.frame.1 ▸ hp)).mono _
      · rcases List.mem_append.mp he with he | he
        · exact (h.told i seq payload he).mono _
        · exact absurd he hm.wrote
  | client i inp =>
      obtain ⟨a, s₁, t, -, hserved, hr, rfl⟩ := Daemon.clientStep_cases hs
      have hm := Daemon.phase_moves hserved hr
      have hcaps : s₁.router.capsPayload = s.router.capsPayload := hm.capsPayload
      refine ⟨fun hc => ?_, fun hc => ?_, ?_, fun j seq payload he => ?_⟩
      · exact hcaps ▸ (h.cached (hcaps ▸ hc)).mono _
      · exact hm.frame.2.1 ▸ (h.caching (hm.frame.2.1 ▸ hc)).mono _
      · refine hm.forall_phase (P := fun _ p => ∀ seq payload, p = .helloWrite .caps seq payload →
          Said (es ++ es') payload) (fun seq payload hp => ?_) fun j _ seq payload hp =>
            (h.greets j seq payload hp).mono _
        obtain ⟨hphase, ha, hne⟩ := resume_helloWrite hr hp
        rw [hphase] at hserved
        cases hserved
        cases ha
        exact (h.cached hne).mono _
      · rcases List.mem_append.mp he with he | he
        · exact (h.told j seq payload he).mono _
        · have hwrites : ∀ {about typ seq payload},
              (s.threads i).phase.need agentErrorBody = .write about typ seq payload →
                about = .hello → (s.threads i).phase = .helloWrite typ seq payload := by
            intro about typ seq payload hn habout
            subst habout
            cases hp : (s.threads i).phase with
            | relay r p => rw [hp] at hn; cases p <;> cases hn
            | helloWrite => rw [hp] at hn; cases hn; rfl
            | _ => rw [hp] at hn; cases hn
          generalize (s.threads i).phase.need agentErrorBody = n at hserved hwrites
          cases hserved with
          | wrote =>
              cases List.mem_singleton.mp he
              exact (h.greets i seq payload (hwrites rfl rfl)).mono _
          | _ => simp at he

theorem run_known {ls : List Daemon.Label} {s : Daemon.State} {es : List Daemon.Event}
    (hr : (Daemon.machine agentErrorBody).run .initial ls = some (s, es)) : Known s es := by
  refine Machine.run_events (P := Known) (fun h hs => h.step hs) ⟨?_, ?_, ?_, ?_⟩ hr
  · exact fun hc => absurd rfl hc
  · exact fun hc => absurd rfl hc
  · exact fun _ _ _ hp => (by cases hp)
  · exact fun _ _ _ he => (by cases he)

/-! ## What a call returns -/

section Returns

variable {b : DeviceLink.Bodies} {i : Nat} {c : Call} {F : Frame} {s : State} {ls : List Label}
  {es : List Daemon.Event} {about : Daemon.Source} {typ : MsgType} {seq : UInt16}
  {payload : List UInt8}

/-- The device's frame `g` came for the frame `F`: `F` was sent on as a request, and `g` came
after that, with its seq. -/
def CameFor (i : Nat) (F : Frame) (ls : List Label) (es : List Daemon.Event) (g : Frame) : Prop :=
  ∃ r : Request, r.frame = F ∧
    .queue r.item ∈ conversation agentErrorBody i (daemonLabels ls) ∧ g.seq = r.ticket.seq ∧
    ∃ before since, es = before ++ .registered i r.ticket :: since ∧ .arrived g ∈ since

/-- A frame is written that is no ERROR: it is the device's. -/
theorem Joined.device (h : Joined i c F s ls es) (hF : F.payload.length ≤ 0xFFFF)
    (hhello : F.typ ≠ .hello) (htyp : typ ≠ .error) (he : .wrote i about typ seq payload ∈ es) :
    ∃ g, CameFor i F ls es g ∧ g.typ = typ ∧ g.payload = payload := by
  have hone : ((conversation agentErrorBody i (daemonLabels ls)).filterMap Turn.asked).length ≤ 1 :=
    (h.asked hF).length_le
  have hown := Daemon.run_own h.run hone
  cases h.about hF he with
  | caps hello | noDevice hello => exact absurd hello hhello
  | timeout | stopTimeout => exact absurd rfl htyp
  | device r g mine sent =>
      obtain ⟨hseq, -, -, before, since, hes, harrived⟩ := hown _ _ _ _ _ he
      exact ⟨g, ⟨r, mine, sent, hseq, before, since, hes, harrived⟩, rfl, rfl⟩

/-- A HELLO is answered with CAPS that the device has sent. -/
theorem Joined.caps (h : Joined i c F s ls es) (hF : F.payload.length ≤ 0xFFFF)
    (hhello : F.typ = .hello) (htyp : typ = .caps) (he : .wrote i about typ seq payload ∈ es) :
    Said es payload := by
  cases h.about hF he with
  | caps => exact (run_known h.run).told _ _ _ he
  | noDevice => cases htyp
  | device r _ mine _ | timeout r mine | stopTimeout r mine =>
      exact absurd (mine ▸ hhello) r.notHello

theorem Call.wire_of_bytes {bytes : List UInt8} (hb : c.bytes b = .ok bytes)
    (hlen : (c.frame b).payload.length < 2 ^ 32) :
    bytes = (c.frame b).wire ∧ (c.frame b).payload.length ≤ 0xFFFF := by
  have hflags : (c.frame b).flags = 0 ∧ (c.frame b).seq = 1 := by cases c <;> exact ⟨rfl, rfl⟩
  unfold Call.bytes at hb
  dsimp only at hb
  rw [encode_cases] at hb
  split_ifs at hb with hfits
  · cases hb
    rw [Nat.mod_eq_of_lt hlen] at hfits
    refine ⟨?_, hfits.1⟩
    rw [List.take_left' (length_wire _ _ _ _), Frame.wire, hflags.1, hflags.2]

/-- What stands behind a reply: what the device has said, in frames that came for the call. -/
def Backed (b : DeviceLink.Bodies) (i : Nat) (F : Frame) (ls : List Label)
    (es : List Daemon.Event) : Reply → Prop
  | .caps caps => ∃ payload, Said es payload ∧ b.caps payload = .ok caps
  | .resp resp => ∃ g, CameFor i F ls es g ∧ g.typ = .resp ∧ b.resp g.payload = .ok resp
  | .pong payload => ∃ g, CameFor i F ls es g ∧ g.typ = .pong ∧ g.payload = payload
  | .status (.connected n) =>
      ∃ payload caps, Said es payload ∧ b.caps payload = .ok caps ∧ caps.instruments.length = n
  | .status _ => True

theorem map_ok {ε α β : Type} {x : Except ε α} {f : α → β} {y : β} (h : x.map f = .ok y) :
    ∃ a, x = .ok a ∧ f a = y := by
  cases x <;> cases h
  exact ⟨_, rfl, rfl⟩

/-- **What a call returns was said for it.**  A call that has written its frame, with a body of
less than 2^32 bytes (`encode` casts the length), and the daemon, in any interleaving and with
any other clients.  A RESP or a PONG that it returns is
a frame of the device that came for its own request, after it and with its seq; CAPS that it
returns, or counts the instruments of, are what the device has sent. -/
theorem call_returns {bytes : List UInt8} (hb : c.bytes b = .ok bytes)
    (hlen : (c.frame b).payload.length < 2 ^ 32)
    (hr : (machine i c).run (start bytes) ls = some (s, es)) {r : Except Failure OwnedFrame}
    {reply : Reply} (hover : s.wait = .over r) (hreply : c.result b r = .ok reply) :
    Backed b i (c.frame b) ls es reply := by
  obtain ⟨rfl, hF⟩ := Call.wire_of_bytes hb hlen
  have h := run_joined hF hr
  cases c with
  | caps =>
      obtain ⟨caps, hcaps, rfl⟩ := map_ok hreply
      obtain ⟨f, rfl, ht, hdecode⟩ := capsResult_ok hcaps
      obtain ⟨-, about, he⟩ := h.told hover
      exact ⟨f.payload, h.caps hF rfl ht he, hdecode⟩
  | invoke instrument opcode params =>
      obtain ⟨resp, hresp, rfl⟩ := map_ok hreply
      obtain ⟨f, rfl, ht, hdecode⟩ := invokeResult_ok hresp
      obtain ⟨-, about, he⟩ := h.told hover
      obtain ⟨g, hcame, hgt, hg⟩ := h.device hF nofun (by rw [ht]; exact nofun) he
      exact ⟨g, hcame, hgt.trans ht, hg ▸ hdecode⟩
  | ping sent =>
      obtain ⟨payload, hping, rfl⟩ := map_ok hreply
      obtain ⟨f, rfl, hf⟩ := pingResult_ok hping
      obtain ⟨htakes, about, he⟩ := h.told hover
      have ht : f.typ = .pong := (of_decide_eq_true htakes).1
      obtain ⟨g, hcame, hgt, hg⟩ := h.device hF nofun (by rw [ht]; exact nofun) he
      exact ⟨g, hcame, hgt.trans ht, hg.trans hf⟩
  | status =>
      cases hreply
      cases hd : statusResult b r with
      | connected n =>
          obtain ⟨f, caps, rfl, ht, hdecode, hn⟩ := statusResult_connected hd
          obtain ⟨-, about, he⟩ := h.told hover
          exact ⟨f.payload, caps, h.caps hF rfl ht he, hdecode, hn⟩
      | _ => trivial

/-- The device answers a PING. -/
def pong : Frame := { typ := .pong, flags := 0, seq := 1, payload := [0x41] }

/-- The daemon finds the device, passes a PING on to it and its PONG back. -/
def passing : List Daemon.Label :=
  Daemon.connectLabels ++
    [.client 0 (.read (.data (wire .ping 0 1 [0x41]))), .client 0 .go, .client 0 .go, .client 0 .go,
      .client 0 .go, .owner .go, .owner (.wrote true), .owner .go, .owner .go,
      .owner (.read (some pong.wire)), .owner .go, .owner .go, .owner .go, .client 0 .go,
      .client 0 .go, .client 0 (.wrote true)]

def pinging : List Label :=
  passing.map (.daemon · 0) ++ [.call false (.ok 14), .call false (.ok 0)]

/-- Bodies of which a PING looks at none. -/
def noBodies : DeviceLink.Bodies where
  value _ := []
  caps _ := .error "unexpected type"
  resp _ := .error "unexpected type"
  agentError _ := .error "unexpected type"

theorem call_returns_pong : ∃ (s : State) (es : List Daemon.Event),
    (machine 0 (.ping [0x41])).run (start (wire .ping 0 1 [0x41])) pinging = some (s, es) ∧
      s.wait = .over (.ok pong) ∧
      Backed noBodies 0 ⟨.ping, 0, 1, [0x41]⟩ pinging es (.pong [0x41]) := by
  obtain ⟨⟨s, es⟩, hr, hwait⟩ := Option.map_eq_some_iff.mp
    (show ((machine 0 (.ping [0x41])).run (start (wire .ping 0 1 [0x41])) pinging).map
        (fun p => decide (p.1.wait = .over (.ok pong))) = some true by decide +kernel)
  have hover : s.wait = .over (.ok pong) := of_decide_eq_true hwait
  have hb : Call.bytes noBodies (.ping [0x41]) = .ok (wire .ping 0 1 [0x41]) := by decide +kernel
  exact ⟨s, es, hr, hover, call_returns hb (by decide) hr hover rfl⟩

end Returns

end FlipLink.RoundTrip

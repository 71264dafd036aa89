/-
# `FlipLink.Daemon.Downlink` — what the device is sent

Every client's thread queues whole frames, and the owner takes them out of the queue and
writes them to the link in pieces of 64 bytes.  Over all sessions the frames come out in
the order in which they were queued, each at most once.  In a session the device is sent
the HELLO and then whole frames; only the last one may be cut, where a write fails, and it
is not sent again in the next session.

`linkLog` and `queueLog` read what goes over the link and what is queued off the steps of
the daemon.  `Holds` is what the frame in the owner's hands has to do with the session
that is open, and `owner_turns` is the step lemma.
-/
import FlipLink.Daemon.Handover
import FlipLink.Lib.Sessions

namespace FlipLink.Daemon

open Lib

/-! ## What goes over the link -/

inductive LinkTurn where
  /-- The HELLO of a handshake is written. -/
  | hello
  /-- A piece of a frame is written. -/
  | put (x : Outbound) (chunk : List UInt8)
  /-- The write of a piece fails. -/
  | fail (x : Outbound) (chunk : List UInt8)
  deriving DecidableEq, Repr

/-- A write to the link, by whether it succeeds. -/
def Event.onLink (ok : Bool) : Event → Option LinkTurn
  | .deviceWrite x chunk => some (if ok then .put x chunk else .fail x chunk)
  | _ => none

/-- What a step writes to the link.  A HELLO whose write fails is left out: its session has not
begun, and no frame is cut by it. -/
def linkTurns (s : State) (l : Label) (_ : State) (es : List Event) : List LinkTurn :=
  match l with
  | .owner (.wrote ok) =>
      match s.owner with
      | .helloWrite _ => if ok then [.hello] else []
      | _ => es.filterMap (Event.onLink ok)
  | _ => []

/-- What a step queues to the device. -/
def queues (s : State) (l : Label) (s' : State) (_ : List Event) : List Outbound :=
  match l with
  | .client .. => s'.outbound.drop s.outbound.length
  | _ => []

section Logs

variable (errorBody : UInt32 → String → List UInt8) (ls : List Label)

/-- What goes over the link, from the daemon's start. -/
def linkLog : List LinkTurn := (machine errorBody).trace linkTurns .initial ls

/-- What is queued to the device, from the daemon's start. -/
def queueLog : List Outbound := (machine errorBody).trace queues .initial ls

end Logs

/-- The HELLO that `cache_caps` sends. -/
def deviceHello : Frame := { typ := .hello, flags := 0, seq := 0, payload := helloBody 0 }

/-- The bytes that the link has taken. -/
def LinkTurn.bytes : LinkTurn → List UInt8
  | .hello => deviceHello.wire
  | .put _ chunk => chunk
  | .fail .. => []

/-! ## Sessions of the link -/

/-- What became of the last frame that the owner took out of the queue. -/
inductive Tail where
  /-- It is written whole, if there was one. -/
  | none
  /-- It is being written, and not all of it is. -/
  | writing (x : Outbound) (done : List (List UInt8)) (chunk : List UInt8)
      (todo : List (List UInt8)) (h : outboundChunks x.bytes = done ++ chunk :: todo)
  /-- The write of a piece has failed. -/
  | cut (x : Outbound) (done : List (List UInt8)) (chunk : List UInt8)
      (todo : List (List UInt8)) (h : outboundChunks x.bytes = done ++ chunk :: todo)

namespace Tail

def item : Tail → Option Outbound
  | .none => Option.none
  | .writing x .. | .cut x .. => some x

def turns : Tail → List LinkTurn
  | .none => []
  | .writing x done .. => done.map (.put x)
  | .cut x done chunk .. => done.map (.put x) ++ [.fail x chunk]

/-- Nothing is being written. -/
def Settled : Tail → Prop
  | .writing .. => False
  | _ => True

end Tail

/-- A session: the frames that are written whole, and the last one. -/
structure LinkSession where
  whole : List Outbound
  tail : Tail

namespace LinkSession

variable (σ : LinkSession)

/-- The frames that the session has taken out of the queue. -/
def taken : List Outbound := σ.whole ++ σ.tail.item.toList

def turns : List LinkTurn :=
  .hello :: σ.whole.flatMap (fun x => (outboundChunks x.bytes).map (.put x)) ++ σ.tail.turns

/-- What the device is sent in it. -/
def bytes : List UInt8 := σ.turns.flatMap LinkTurn.bytes

end LinkSession

namespace Owner

/-- The pieces still to be written of the frame in hand. -/
def unwritten : Owner → List (List UInt8)
  | .write _ _ chunks => chunks
  | _ => []

end Owner

/-- How the open session, or the last one, stands when the owner is here. -/
inductive Holds : Owner → Option LinkSession → Prop
  | down {o cur} (ho : o.inSession = false) (hcur : ∀ σ ∈ cur, σ.tail.Settled) : Holds o cur
  | between {o whole} (ho : o.inSession = true) (hw : o.unwritten = []) :
      Holds o (some ⟨whole, .none⟩)
  | writing {reader x done chunk todo whole} (h : outboundChunks x.bytes = done ++ chunk :: todo) :
      Holds (.write reader x (chunk :: todo)) (some ⟨whole, .writing x done chunk todo h⟩)

/-! ## One step of the owner -/

/-- What the last session has sent, if there is one. -/
def sent (cur : Option LinkSession) : List LinkTurn := cur.elim [] LinkSession.turns

def took (cur : Option LinkSession) : List Outbound := cur.elim [] LinkSession.taken

/-- What a step makes of the last session: it goes on, or a new one begins. -/
inductive Proceeds (s s₁ : State) (cur : Option LinkSession) (ts : List LinkTurn) (o' : Owner) :
    Prop
  | on (cur') (hts : sent cur' = sent cur ++ ts)
      (htook : took cur ++ s.outbound = took cur' ++ s₁.outbound) (hholds : Holds o' cur')
  | anew (hts : ts = [.hello]) (hcur : ∀ σ ∈ cur, σ.tail.Settled) (hout : s₁.outbound = s.outbound)
      (hholds : Holds o' (some ⟨[], .none⟩))

section Step

variable {s s₁ : State} {a : Owner.Answer} {es : List Event} {o' : Owner} {inp : OwnerInput}
  {cur : Option LinkSession}

theorem Proceeds.still (hout : s₁.outbound = s.outbound) (hholds : Holds o' cur) :
    Proceeds s s₁ cur [] o' :=
  .on cur (List.append_nil _).symm (by rw [hout]) hholds

theorem holds_failed (n now : Nat) (hcur : ∀ σ ∈ cur, σ.tail.Settled) :
    Holds (Owner.failed n now) cur := by
  refine .down ?_ hcur
  unfold Owner.failed
  split_ifs <;> rfl

/-- A session goes on with nothing in hand. -/
theorem Holds.go_on {o : Owner} (h : Holds o cur) (ho : o.inSession = true)
    (hw : o.unwritten = []) (ho' : o'.inSession = true) (hw' : o'.unwritten = []) :
    Holds o' cur := by
  cases h with
  | down hdown => exact absurd (ho.symm.trans hdown) nofun
  | between => exact .between ho' hw'
  | writing => cases hw

theorem Holds.tail_settled {o : Owner} (h : Holds o cur) (hw : o.unwritten = []) :
    ∀ σ ∈ cur, σ.tail.Settled := by
  cases h with
  | down _ hcur => exact hcur
  | between => rintro σ hσ; cases hσ; trivial
  | writing => cases hw

/-- The owner takes a frame out of the queue. -/
theorem Proceeds.pop {reader : FrameReader} {x : Outbound} {rest : List Outbound}
    (h : Holds (.out reader) cur) (hq : s.outbound = x :: rest) :
    Proceeds s { s with outbound := rest } cur [] (.write reader x (outboundChunks x.bytes)) := by
  cases h with
  | down ho => cases ho
  | @between _ whole =>
      cases hc : outboundChunks x.bytes with
      | nil =>
          refine .on (some ⟨whole ++ [x], .none⟩) ?_ ?_ (.between rfl rfl)
          · simp [sent, LinkSession.turns, Tail.turns, hc]
          · simp [took, LinkSession.taken, Tail.item, hq]
      | cons chunk todo =>
          refine .on (some ⟨whole, .writing x [] chunk todo hc⟩) ?_ ?_ (.writing hc)
          · simp [sent, LinkSession.turns, Tail.turns]
          · simp [took, LinkSession.taken, Tail.item, hq]

/-- A piece is written. -/
theorem Proceeds.put {reader : FrameReader} {x : Outbound} {chunk : List UInt8}
    {todo : List (List UInt8)} (h : Holds (.write reader x (chunk :: todo)) cur) :
    Proceeds s s cur [.put x chunk] (.write reader x todo) := by
  cases h with
  | down ho => cases ho
  | between _ hw => cases hw
  | @writing _ _ done _ _ whole h =>
      cases todo with
      | nil =>
          refine .on (some ⟨whole ++ [x], .none⟩) ?_ ?_ (.between rfl rfl)
          · simp [sent, LinkSession.turns, Tail.turns, h]
          · simp [took, LinkSession.taken, Tail.item]
      | cons next todo =>
          have h' : outboundChunks x.bytes = (done ++ [chunk]) ++ next :: todo := by
            rw [h, List.append_assoc, List.singleton_append]
          refine .on (some ⟨whole, .writing x (done ++ [chunk]) next todo h'⟩) ?_ ?_ (.writing h')
          · simp [sent, LinkSession.turns, Tail.turns]
          · simp [took, LinkSession.taken, Tail.item]

/-- The write of a piece fails, and the session is over. -/
theorem Proceeds.fail {reader : FrameReader} {x : Outbound} {chunk : List UInt8}
    {todo : List (List UInt8)} (h : Holds (.write reader x (chunk :: todo)) cur) :
    Proceeds s s cur [.fail x chunk] (.connect 1) := by
  cases h with
  | down ho => cases ho
  | between _ hw => cases hw
  | @writing _ _ done _ _ whole h =>
      refine .on (some ⟨whole, .cut x done chunk todo h⟩) ?_ ?_
        (.down rfl fun σ hσ => (by cases hσ; trivial))
      · simp [sent, LinkSession.turns, Tail.turns]
      · simp [took, LinkSession.taken, Tail.item]

/-- Nothing is being written, and neither is the HELLO. -/
def Owner.Reads (o : Owner) : Prop := o.unwritten = [] ∧ ∀ n, o ≠ .helloWrite n

/-- The owner's other moves begin and end no write. -/
theorem holds_resume {o : Owner} {now : Nat} (hh : Holds o cur) (ho : o.Reads)
    (ha : ∀ x, a ≠ .item (some x)) (hr : o.resume now a = some o') : Holds o' cur := by
  have hset := hh.tail_settled ho.1
  unfold Owner.resume at hr
  split at hr
  · cases hr
    split_ifs
    · exact .down rfl hset
    · exact holds_failed _ _ hset
  · cases hr; exact .down rfl hset
  · exact absurd rfl (ho.2 _)
  · split at hr
    · cases hr; exact hh.go_on rfl rfl rfl rfl
    · cases hr
      split_ifs
      · exact holds_failed _ _ hset
      · exact hh.go_on rfl rfl rfl rfl
  · cases hr
    split_ifs <;> exact hh.go_on rfl rfl rfl rfl
  · cases hr; exact holds_failed _ _ hset
  · cases hr; exact hh.go_on rfl rfl rfl rfl
  · cases hr; exact hh.go_on rfl rfl rfl rfl
  · exact absurd rfl (ha _)
  · cases hr; exact hh.go_on rfl rfl rfl rfl
  · cases hr; exact hh.go_on rfl rfl rfl rfl
  · cases ho.1
  · cases hr; exact .down rfl hset
  · cases hr
    split_ifs <;> exact hh.go_on rfl rfl rfl rfl
  · split at hr <;> cases hr <;> exact hh.go_on rfl rfl rfl rfl
  · cases hr; exact hh.go_on rfl rfl rfl rfl
  · cases hr; exact hh.go_on rfl rfl rfl rfl
  · cases hr; exact .down rfl hset
  · cases hr; exact .down rfl hset
  · cases hr; exact .down rfl hset
  · cases hr

theorem Owner.kinds : ∀ o : Owner, o.Reads ∨ (∃ n, o = .helloWrite n) ∨
    ∃ reader x chunk todo, o = .write reader x (chunk :: todo)
  | .helloWrite n => .inr (.inl ⟨n, rfl⟩)
  | .write reader x (chunk :: todo) => .inr (.inr ⟨reader, x, chunk, todo, rfl⟩)
  | .write _ _ [] | .connect _ | .sleep .. | .handshake .. | .handshakeRead .. | .see .. | .cache _
  | .out _ | .read _ | .frames _ | .lookup .. | .send .. | .clearCaps | .idle | .drainWake =>
      .inl ⟨rfl, fun _ => nofun⟩

theorem resume_item {o : Owner} {now : Nat} {x : Outbound}
    (h : o.resume now (.item (some x)) = some o') :
    ∃ reader, o = .out reader ∧ o' = .write reader x (outboundChunks x.bytes) := by
  unfold Owner.resume at h
  split at h
  all_goals first | (rename_i heq; cases heq; done) | cases h
  rename_i heq
  cases heq
  exact ⟨_, rfl, rfl⟩

theorem own_onLink {o : Owner} {ok : Bool} (ho : o.Reads) (h : Owned s o.need a s₁ es) :
    es.filterMap (Event.onLink ok) = [] := by
  generalize hn : o.need = n at h
  cases h with
  | write =>
      unfold Owner.need at hn
      split at hn
      all_goals first | (cases hn; done) | cases ho.1
  | _ => rfl

theorem own_outbound {o : Owner} (ha : ∀ x, a ≠ .item (some x)) (h : Owned s o.need a s₁ es) :
    s₁.outbound = s.outbound := by
  generalize o.need = n at h
  cases h with
  | see | lookup => exact (mark_frame s _).2.2.1
  | popped => exact absurd rfl (ha _)
  | _ => rfl

theorem linkTurns_reads {s' : State} (ho : s.owner.Reads) (h : Owned s s.owner.need a s₁ es) :
    linkTurns s (.owner inp) s' es = [] := by
  unfold linkTurns
  split
  · split
    · exact absurd ‹_› (ho.2 _)
    · exact own_onLink ho h
  · rfl

/-- What a step of the owner makes of the last session. -/
theorem owner_turns {t : State} (hh : Holds s.owner cur)
    (hown : own s s.owner.need inp = some (a, s₁, es)) (hr : s.owner.resume s.now a = some o') :
    Proceeds s s₁ cur (linkTurns s (.owner inp) t es) o' := by
  have howned := own_cases hown
  rcases s.owner.kinds with hreads | ⟨n, ho⟩ | ⟨reader, x, chunk, todo, ho⟩
  · rw [linkTurns_reads hreads howned]
    by_cases ha : ∃ x, a = .item (some x)
    · obtain ⟨x, rfl⟩ := ha
      obtain ⟨reader, ho, rfl⟩ := resume_item hr
      rw [ho] at hh
      generalize s.owner.need = need at howned
      cases howned with
      | popped hq => exact .pop hh hq
    · have ha' : ∀ x, a ≠ .item (some x) := fun x hx => ha ⟨x, hx⟩
      exact .still (own_outbound ha' howned) (holds_resume hh hreads ha' hr)
  · rw [ho] at hh hr hown
    cases inp with
    | wrote ok =>
        cases hown
        cases hr
        have hts : linkTurns s (.owner (.wrote ok)) t [] = if ok then [.hello] else [] := by
          rw [linkTurns, ho]
        rw [hts]
        cases ok with
        | true => exact .anew rfl (hh.tail_settled rfl) rfl (.between rfl rfl)
        | false => exact .still rfl (holds_failed _ _ (hh.tail_settled rfl))
    | _ => cases hown
  · rw [ho] at hh hr hown
    cases inp with
    | wrote ok =>
        cases hown
        cases hr
        have hts : linkTurns s (.owner (.wrote ok)) t [.deviceWrite x chunk]
            = [if ok then .put x chunk else .fail x chunk] := by
          rw [linkTurns, ho]
          rfl
        rw [hts]
        cases ok with
        | true => exact .put hh
        | false => exact .fail hh
    | _ => cases hown

end Step

/-! ## The pieces of a frame -/

theorem chunksUpTo_flatten {n : Nat} (hn : 0 < n) : ∀ {k : Nat} {bytes : List UInt8},
    bytes.length ≤ k → (chunksUpTo n k bytes).flatten = bytes
  | 0, bytes, h => (List.eq_nil_of_length_eq_zero (Nat.le_zero.mp h)).symm
  | k + 1, [], _ => rfl
  | k + 1, b :: bytes, h => by
      have hdrop : ((b :: bytes).drop n).length ≤ k := by
        rw [List.length_drop]
        omega
      show (b :: bytes).take n ++ (chunksUpTo n k ((b :: bytes).drop n)).flatten = _
      rw [chunksUpTo_flatten hn hdrop, List.take_append_drop]

theorem chunksUpTo_length {n : Nat} (hn : 0 < n) : ∀ {k : Nat} {bytes c : List UInt8},
    c ∈ chunksUpTo n k bytes → 0 < c.length ∧ c.length ≤ n
  | k + 1, b :: bytes, c, hc => by
      rcases List.mem_cons.mp hc with rfl | hc
      · rw [List.length_take, List.length_cons]
        omega
      · exact chunksUpTo_length hn hc

theorem outboundChunks_flatten (bytes : List UInt8) : (outboundChunks bytes).flatten = bytes :=
  chunksUpTo_flatten (by decide) (Nat.le_refl _)

/-! ## What is queued -/

/-- What is queued is this frame. -/
structure Carries (x : Outbound) (f : Frame) : Prop where
  fits : f.payload.length ≤ 0xFFFF
  bytes : x.bytes = f.wire
  typ : x.typ = f.typ
  seq : x.ticket.seq = f.seq

section Queue

variable {eb : UInt32 → String → List UInt8} {s s₁ : State} {i : Nat} {inp : ClientInput}
  {a : Answer} {es : List Event}

theorem need_fits {kind : Kind} {d : Ticket} {typ : MsgType} {flags : UInt8}
    {payload : List UInt8} : ∀ {p : Phase}, p.Fits →
      p.need eb = .forward kind d typ flags payload → payload.length ≤ 0xFFFF
  | .forward f d, hfits, h => by cases h; exact hfits
  | .relay r p, _, h => by
      cases p
      case forwardStop | eofForward => cases h; exact Nat.zero_le _
      all_goals cases h

/-- A client's step queues one frame, or none. -/
theorem served_queue {p : Phase} (hfits : p.Fits) (h : Served s i (p.need eb) inp a s₁ es) :
    s₁.outbound = s.outbound ∨ ∃ x f, s₁.outbound = s.outbound ++ [x] ∧ Carries x f := by
  generalize hn : p.need eb = n at h
  cases h with
  | @queued kind d typ flags payload bytes hb =>
      have hlen := need_fits hfits hn
      rw [frameBytes_eq _ _ _ hlen] at hb
      exact .inr ⟨_, ⟨typ, flags, d.seq, payload⟩, rfl,
        ⟨hlen, (Option.some.inj hb).symm, rfl, rfl⟩⟩
  | _ => exact .inl rfl

/-! ## A whole run -/

/-- The sessions so far, and the queue. -/
structure Linked (s : State) (log : List LinkTurn) (queued : List Outbound) : Prop where
  sessions : ∃ (past : List LinkSession) (cur : Option LinkSession), (∀ σ ∈ past, σ.tail.Settled) ∧
    log = past.flatMap LinkSession.turns ++ sent cur ∧
    queued = past.flatMap LinkSession.taken ++ (took cur ++ s.outbound) ∧ Holds s.owner cur
  framed : ∀ x ∈ queued, ∃ f, Carries x f
  fits : ∀ i, (s.threads i).phase.Fits

theorem Linked.initial : Linked .initial [] [] where
  sessions := ⟨[], none, nofun, rfl, rfl, .down rfl nofun⟩
  framed := nofun
  fits _ := trivial

theorem Linked.step {s s' : State} {l : Label} {log : List LinkTurn} {queued : List Outbound}
    {es : List Event} (h : Linked s log queued) (hs : (machine eb).step s l = some (s', es)) :
    Linked s' (log ++ linkTurns s l s' es) (queued ++ queues s l s' es) := by
  obtain ⟨⟨past, cur, hpast, hlog, hqueued, hholds⟩, hframed, hfits⟩ := h
  have hfits' := (step_moved hs).fits hfits
  cases l with
  | tick ms =>
      cases hs
      have hl : linkTurns s (.tick ms) { s with now := s.now + ms } [] = [] := rfl
      have hq : queues s (.tick ms) { s with now := s.now + ms } [] = [] := rfl
      rw [hl, hq, List.append_nil, List.append_nil]
      exact ⟨⟨past, cur, hpast, hlog, hqueued, hholds⟩, hframed, hfits'⟩
  | client i inp =>
      obtain ⟨a, s₁, t, -, hserved, -, rfl⟩ := clientStep_cases hs
      have howner : s₁.owner = s.owner := by
        generalize (s.threads i).phase.need eb = n at hserved
        cases hserved <;> rfl
      have hl : linkTurns s (.client i inp) (s₁.setThread i t) es = [] := rfl
      have hq : queues s (.client i inp) (s₁.setThread i t) es
          = s₁.outbound.drop s.outbound.length := rfl
      rw [hl, hq, List.append_nil]
      rcases served_queue (hfits i) hserved with hout | ⟨x, f, hout, hcarries⟩
      · rw [hout, List.drop_length, List.append_nil]
        refine ⟨⟨past, cur, hpast, hlog, ?_, howner ▸ hholds⟩, hframed, hfits'⟩
        show queued = _ ++ (took cur ++ s₁.outbound)
        rw [hout, hqueued]
      · rw [hout, List.drop_left]
        refine ⟨⟨past, cur, hpast, hlog, ?_, howner ▸ hholds⟩, ?_, hfits'⟩
        · show _ = _ ++ (took cur ++ s₁.outbound)
          rw [hout, hqueued]
          simp only [List.append_assoc]
        · intro y hy
          rcases List.mem_append.mp hy with hy | hy
          · exact hframed y hy
          · exact ⟨f, List.mem_singleton.mp hy ▸ hcarries⟩
  | owner inp =>
      obtain ⟨a, s₁, o, hown, -, hr, rfl⟩ := ownerStep_cases hs
      have hq : queues s (.owner inp) { s₁ with owner := o } es = [] := rfl
      rw [hq, List.append_nil]
      refine ⟨?_, hframed, hfits'⟩
      cases owner_turns (t := { s₁ with owner := o }) hholds hown hr with
      | on cur' hts htook hholds' =>
          refine ⟨past, cur', hpast, ?_, ?_, hholds'⟩
          · rw [hlog, hts, List.append_assoc]
          · rw [hqueued, htook]
      | anew hts hcur hout hholds' =>
          refine ⟨past ++ cur.toList, some ⟨[], .none⟩, ?_, ?_, ?_, hholds'⟩
          · intro σ hσ
            rcases List.mem_append.mp hσ with hσ | hσ
            · exact hpast σ hσ
            · exact hcur σ (Option.mem_toList.mp hσ)
          · rw [hlog, hts, List.flatMap_append, List.append_assoc]
            cases cur <;> simp [sent, LinkSession.turns, Tail.turns]
          · rw [hqueued, List.flatMap_append, List.append_assoc]
            show _ = _ ++ (_ ++ (took _ ++ s₁.outbound))
            rw [hout]
            cases cur <;> simp [took, LinkSession.taken, Tail.item]

theorem run_linked {ls : List Label} {s : State} {es : List Event}
    (hr : (machine eb).run .initial ls = some (s, es)) :
    Linked s (linkLog eb ls) (queueLog eb ls) :=
  Machine.run_traces (Q := Linked) (fun h hs => h.step hs) .initial hr

end Queue

/-! ## What the device reads -/

theorem put_bytes (x : Outbound) (chunks : List (List UInt8)) :
    (chunks.map (LinkTurn.put x)).flatMap LinkTurn.bytes = chunks.flatten := by
  rw [List.flatMap_map]
  exact List.flatMap_id'

/-- The bytes of a frame that is not written whole. -/
def Tail.bytes : Tail → List UInt8
  | .none => []
  | .writing _ done .. | .cut _ done .. => done.flatten

theorem Tail.turns_bytes : ∀ t : Tail, t.turns.flatMap LinkTurn.bytes = t.bytes
  | .none => rfl
  | .writing x done .. => put_bytes x done
  | .cut x done chunk .. => by
      rw [Tail.turns, List.flatMap_append, put_bytes]
      exact List.append_nil _

theorem LinkSession.bytes_eq (σ : LinkSession) :
    σ.bytes = deviceHello.wire ++ (σ.whole.flatMap Outbound.bytes ++ σ.tail.bytes) := by
  have hwhole : (σ.whole.flatMap fun x => (outboundChunks x.bytes).map (LinkTurn.put x)).flatMap
      LinkTurn.bytes = σ.whole.flatMap Outbound.bytes := by
    rw [List.flatMap_assoc]
    simp only [put_bytes, outboundChunks_flatten]
  rw [LinkSession.bytes, LinkSession.turns, List.cons_append, List.flatMap_cons,
    List.flatMap_append, hwhole, Tail.turns_bytes]
  rfl

/-- The pieces before the last that is written are a proper front of the frame. -/
theorem front_of_chunks {f : Frame} {bytes chunk : List UInt8} {done todo : List (List UInt8)}
    (hbytes : bytes = f.wire) (h : outboundChunks bytes = done ++ chunk :: todo) :
    ∃ k, k < f.payload.length + 13 ∧ done.flatten = f.wire.take k := by
  have hwire : f.wire = done.flatten ++ (chunk ++ todo.flatten) := by
    rw [← hbytes, ← outboundChunks_flatten bytes, h, List.flatten_append, List.flatten_cons]
  have hchunk : 0 < chunk.length :=
    (chunksUpTo_length (n := 64) (by decide)
      (h ▸ List.mem_append_right _ List.mem_cons_self)).1
  have hlen := congrArg List.length hwire
  rw [Frame.wire, length_wire, List.length_append, List.length_append] at hlen
  refine ⟨done.flatten.length, by omega, ?_⟩
  rw [hwire, List.take_left]

/-- What is sent of a frame that is not written whole makes no frame. -/
theorem Tail.drain_bytes : ∀ {t : Tail}, (∀ x ∈ t.item, ∃ f, Carries x f) →
    (codec.drain t.bytes).1 = []
  | .none, _ => rfl
  | .writing x done chunk todo hc, h | .cut x done chunk todo hc, h => by
      obtain ⟨f, hf⟩ := h x rfl
      obtain ⟨k, hk, hdone⟩ := front_of_chunks hf.bytes hc
      rw [Tail.bytes, hdone, codec.drain_of_none (next_take_wire hf.fits hk)]

theorem LinkSession.drain_bytes {σ : LinkSession} {frame : Outbound → Frame}
    (h : ∀ x ∈ σ.taken, Carries x (frame x)) :
    (codec.drain σ.bytes).1 = deviceHello :: σ.whole.map frame := by
  have hwhole : ∀ x ∈ σ.whole, Carries x (frame x) := fun x hx => h x (List.mem_append_left _ hx)
  have htail : ∀ x ∈ σ.tail.item, ∃ f, Carries x f := fun x hx =>
    ⟨_, h x (List.mem_append_right _ (Option.mem_toList.mpr hx))⟩
  have hframes : ∀ f ∈ deviceHello :: σ.whole.map frame, f.payload.length ≤ 0xFFFF := by
    refine List.forall_mem_cons.mpr ⟨by decide, fun f hf => ?_⟩
    obtain ⟨x, hx, rfl⟩ := List.mem_map.mp hf
    exact (hwhole x hx).fits
  have hbytes : σ.whole.flatMap Outbound.bytes = (σ.whole.map frame).flatMap Frame.wire := by
    rw [List.flatMap_map]
    exact List.flatMap_congr fun x hx => (hwhole x hx).bytes
  have hall : deviceHello.wire ++ ((σ.whole.map frame).flatMap Frame.wire ++ σ.tail.bytes)
      = (deviceHello :: σ.whole.map frame).flatMap Frame.wire ++ σ.tail.bytes := by
    rw [List.flatMap_cons, List.append_assoc]
  rw [σ.bytes_eq, hbytes, hall, codec_drain_wires hframes, Tail.drain_bytes htail, List.append_nil]

/-- **The device is sent what is queued, in order, each frame at most once.**  In every run
of the daemon the frames queued to the device are those that its sessions have taken up, one
session after the other, and then those still in the queue.  A reader of the bytes of a
session returns the HELLO and then the frames that were written whole: all that the session
has taken up but its last one, if that is not written yet or its write has failed. -/
theorem device_sent_in_order {eb : UInt32 → String → List UInt8} {ls : List Label} {s : State}
    {es : List Event} (hr : (machine eb).run .initial ls = some (s, es)) :
    ∃ (frame : Outbound → Frame) (sessions : List LinkSession),
      (∀ x ∈ queueLog eb ls, Carries x (frame x)) ∧
      linkLog eb ls = sessions.flatMap LinkSession.turns ∧
      queueLog eb ls = sessions.flatMap LinkSession.taken ++ s.outbound ∧
      (∀ σ ∈ sessions.dropLast, σ.tail.Settled) ∧
      ∀ σ ∈ sessions, (codec.drain σ.bytes).1 = deviceHello :: σ.whole.map frame := by
  obtain ⟨⟨past, cur, hpast, hlog, hqueued, -⟩, hframed, -⟩ := run_linked hr
  have : Nonempty Frame := ⟨deviceHello⟩
  choose! frame hframe using hframed
  have htaken : queueLog eb ls
      = (past ++ cur.toList).flatMap LinkSession.taken ++ s.outbound := by
    rw [hqueued, List.flatMap_append, List.append_assoc]
    cases cur <;> simp [took]
  refine ⟨frame, past ++ cur.toList, hframe, ?_, htaken, ?_, fun σ hσ => ?_⟩
  · rw [hlog, List.flatMap_append]
    cases cur <;> simp [sent]
  · intro σ hσ
    cases cur with
    | none => exact hpast σ (List.dropLast_subset _ (by simpa using hσ))
    | some τ => exact hpast σ (by simpa using hσ)
  · refine LinkSession.drain_bytes fun x hx => hframe x ?_
    rw [htaken]
    exact List.mem_append_left _ (List.mem_flatMap.mpr ⟨σ, hσ, hx⟩)

/-- Where the device comes back late, the request that has waited for it is in its session. -/
theorem device_sent_in_order_late :
    ∃ (s : State) (es : List Event) (frame : Outbound → Frame) (sessions : List LinkSession),
      (machine agentErrorBody).run .initial (giveUpLabels ++ comeBackLabels) = some (s, es) ∧
      queueLog agentErrorBody (giveUpLabels ++ comeBackLabels)
        = sessions.flatMap LinkSession.taken ++ s.outbound ∧
      ∀ σ ∈ sessions, (codec.drain σ.bytes).1 = deviceHello :: σ.whole.map frame := by
  obtain ⟨es, hr⟩ := Machine.run_of_isSome
    (show ((machine agentErrorBody).run .initial (giveUpLabels ++ comeBackLabels)).isSome = true by
      decide +kernel)
  obtain ⟨frame, sessions, -, -, htaken, -, hdrain⟩ := device_sent_in_order hr
  exact ⟨_, es, frame, sessions, hr, htaken, hdrain⟩

end FlipLink.Daemon

/-
# `FlipLink.Daemon.Sizes` — the daemon can frame all that it passes on

Every frame that the daemon decodes has a payload of at most 65535 bytes, and so has every
frame of it that waits in a channel, is in somebody's hands, or is cached as CAPS.  What
`serve_client` writes is one of these or an ERROR of its own, so that `write_frame` never
finds a frame too large.
-/
import FlipLink.Daemon.Caps
import FlipLink.Daemon.Correlation

namespace FlipLink.Daemon

open Lib

/-- The payload can be framed. -/
def Framable (payload : List UInt8) : Prop := payload.length ≤ 0xFFFF

/-- What the owner has decoded and not handed on. -/
def Owner.Sized : Owner → Prop
  | .see _ _ _ f | .lookup _ f | .send _ f _ => Framable f.payload
  | .cache payload => Framable payload
  | _ => True

theorem failed_sized (n now : Nat) : (Owner.failed n now).Sized := by
  unfold Owner.failed
  split_ifs <;> trivial

theorem resume_sized {o o' : Owner} {now : Nat} {a : Owner.Answer} (h : o.Sized)
    (hr : o.resume now a = some o') : o'.Sized := by
  unfold Owner.resume at hr
  split at hr
  · cases hr
    split_ifs
    · trivial
    · exact failed_sized _ _
  · cases hr; trivial
  · cases hr
    split_ifs
    · trivial
    · exact failed_sized _ _
  · split at hr
    · rename_i hn
      cases hr
      exact FrameReader.nextFrame_payload_le hn
    · cases hr
      split_ifs
      · exact failed_sized _ _
      · trivial
  · cases hr
    split_ifs
    · exact h
    · trivial
  · cases hr; exact failed_sized _ _
  · cases hr; trivial
  · cases hr; trivial
  · cases hr; trivial
  · cases hr; trivial
  · cases hr; trivial
  · cases hr
    split_ifs <;> trivial
  · cases hr; trivial
  · cases hr
    split_ifs <;> trivial
  · split at hr
    · rename_i hn
      cases hr
      exact FrameReader.nextFrame_payload_le hn
    · cases hr; trivial
  · cases hr; exact h
  · cases hr; trivial
  · cases hr; trivial
  · cases hr; trivial
  · cases hr; trivial
  · cases hr

/-- What a thread is about to write from the cache. -/
def Phase.greets : Phase → List UInt8
  | .helloWrite _ _ payload => payload
  | _ => []

/-- All that is on its way to a client can be framed. -/
structure Sized (s : State) : Prop where
  owner : s.owner.Sized
  caps : Framable s.router.capsPayload
  channels : ∀ i, ∀ f ∈ s.channels i, Framable f.payload
  asks : ∀ i, (s.threads i).phase.Fits
  held : ∀ i d f, (s.threads i).phase.held = some (d, f) → Framable f.payload
  greets : ∀ i, Framable (s.threads i).phase.greets

theorem Sized.initial : Sized .initial where
  owner := trivial
  caps := Nat.zero_le _
  channels _ _ h := nomatch h
  asks _ := trivial
  held _ _ _ h := nomatch h
  greets _ := Nat.zero_le _

/-! ## One step -/

section Step

variable {eb : UInt32 → String → List UInt8}

/-- A thread greets with the cached CAPS or with an ERROR. -/
theorem resume_greets {s s₁ : State} {i : Nat} {inp : ClientInput} {a : Answer} {es : List Event}
    {t' : Thread} {reader : FrameReader} (hcaps : Framable s.router.capsPayload)
    (heb : Framable (eb errInternal "device not connected")) : ∀ {p : Phase},
    Served s i (p.need eb) inp a s₁ es → (⟨p, reader⟩ : Thread).resume eb s.now a = some t' →
      Framable t'.phase.greets
  | .caps _, .caps, hr => by
      cases hr
      dsimp only
      split_ifs
      · exact heb
      · exact hcaps
  | .frames, .go, hr => by
      simp only [Thread.resume] at hr
      split at hr <;> cases hr
      · exact Nat.zero_le _
      · dsimp only
        split_ifs <;> exact Nat.zero_le _
  | .read, .read .eof, hr | .read, .read (.data _), hr | .read, .read .timeout, hr
  | .read, .read .error, hr | .wake, .wake, hr | .helloWrite .., .failed, hr
  | .helloWrite .., .wrote, hr | .register _, .register, hr | .forward .., .queued _, hr
  | .forward .., .tooLarge _, hr | .await .., .timeout .., hr
  | .replyUnregister .., .unregister, hr | .replyWrite .., .wrote, hr
  | .replyWrite .., .failed, hr | .timeoutUnregister .., .unregister, hr
  | .timeoutWrite .., .wrote, hr | .timeoutWrite .., .failed, hr | .startWrite .., .wrote, hr
  | .startWrite .., .failed, hr => by
      cases hr
      exact Nat.zero_le _
  | .await .., .received _, hr => by
      cases hr
      dsimp only
      split_ifs <;> exact Nat.zero_le _
  | .relay r p, _, hr => by
      simp only [Thread.resume] at hr
      split at hr <;> cases hr <;> exact Nat.zero_le _

/-- What the owner is about to cache. -/
theorem Owner.Sized.setCaps {o : Owner} {payload : List UInt8} (h : o.Sized)
    (hn : o.need = .setCaps payload) : Framable payload := by
  rcases need_setCaps hn with ⟨caps, rfl⟩ | rfl
  · cases hn
    exact h
  · cases hn
    exact Nat.zero_le _

theorem Owner.Sized.sending {o : Owner} {f : Frame} {route : Option Route} (h : o.Sized)
    (hs : o.sending = some (f, route)) : Framable f.payload := by
  cases o with
  | send => cases hs; exact h
  | _ => exact nomatch hs

theorem Owned.caps_fits {s s₁ : State} {a : Owner.Answer} {es : List Event}
    (h : Owned s s.owner.need a s₁ es) (hcaps : Framable s.router.capsPayload)
    (ho : s.owner.Sized) : Framable s₁.router.capsPayload := by
  have hn : ∀ payload, s.owner.need = .setCaps payload → Framable payload := fun _ => ho.setCaps
  generalize s.owner.need = n at h hn
  cases h with
  | setCaps => exact hn _ rfl
  | see | lookup => rwa [(mark_frame s _).2.1]
  | _ => exact hcaps

theorem Sized.step {s s' : State} {l : Label} {es : List Event}
    (heb : Framable (eb errInternal "device not connected")) (h : Sized s)
    (hs : (machine eb).step s l = some (s', es)) : Sized s' := by
  cases l with
  | tick ms => cases hs; exact ⟨h.owner, h.caps, h.channels, h.asks, h.held, h.greets⟩
  | owner inp =>
      obtain ⟨a, s₁, o, -, howned, hr, rfl⟩ := ownerStep_cases hs
      have hm := owner_moves howned hr
      have ht := hm.frame.1
      refine ⟨resume_sized h.owner hr, howned.caps_fits h.caps h.owner, fun i f hf => ?_,
        fun i => ?_, fun i d f hf => ?_, fun i => ?_⟩
      · rcases hm.channels hf with hf | ⟨r, hsend, -⟩
        · exact h.channels i f hf
        · exact h.owner.sending hsend
      · exact ht ▸ h.asks i
      · exact h.held i d f (ht ▸ hf)
      · exact ht ▸ h.greets i
  | client i inp =>
      obtain ⟨a, s₁, t, -, hserved, hr, rfl⟩ := clientStep_cases hs
      have hm := phase_moves hserved hr
      refine ⟨?_, ?_, fun j f hf => h.channels j f (hm.channels hf), ?_, ?_, ?_⟩
      · exact hm.frame.2.1.symm ▸ h.owner
      · exact (show s₁.router.capsPayload = _ from hm.capsPayload) ▸ h.caps
      · exact (Moved.client hm).fits h.asks
      · refine hm.forall_phase (P := fun _ p => ∀ d f, p.held = some (d, f) → Framable f.payload)
          (fun d f hf => ?_) fun j _ => h.held j
        rcases hm.held hf with hf | ⟨-, hf⟩
        · exact h.held i d f hf
        · exact h.channels i f hf
      · exact hm.forall_phase (P := fun _ p => Framable p.greets)
          (resume_greets h.caps heb hserved hr) fun j _ => h.greets j

end Step

/-! ## Whole runs -/

/-- What a thread asks to have framed, for its client or for the device. -/
def Need.payload : Need → Option (List UInt8)
  | .write _ _ _ payload => some payload
  | .forward _ _ _ _ payload => some payload
  | _ => none

theorem agentErrorBody_fits : Framable (agentErrorBody errInternal "device not connected") ∧
    Framable (agentErrorBody errInternal "device timeout") ∧
    Framable (agentErrorBody errInternal "device timeout waiting for stream stop") := by
  unfold Framable
  decide +kernel

theorem Relay.need_fits {r : Relay} {payload : List UInt8} :
    ∀ {p : RelayPhase}, (∀ d f, Phase.held (.relay r p) = some (d, f) → Framable f.payload) →
      (r.need agentErrorBody p).payload = some payload → Framable payload
  | .stopTimeoutWrite, _, hn => by cases hn; exact agentErrorBody_fits.2.2
  | .forwardStop, _, hn | .eofForward, _, hn => by cases hn; exact Nat.zero_le _
  | .write _, hheld, hn => by cases hn; exact hheld _ _ rfl

theorem Phase.need_fits {payload : List UInt8} :
    ∀ {p : Phase}, p.Fits → (∀ d f, p.held = some (d, f) → Framable f.payload) → Framable p.greets →
      (p.need agentErrorBody).payload = some payload → Framable payload
  | .helloWrite .., _, _, hg, hn => by cases hn; exact hg
  | .forward .., hf, _, _, hn => by cases hn; exact hf
  | .replyWrite .., _, hheld, _, hn | .startWrite .., _, hheld, _, hn => by
      cases hn
      exact hheld _ _ rfl
  | .timeoutWrite .., _, _, _, hn => by cases hn; exact agentErrorBody_fits.2.1
  | .relay .., _, hheld, _, hn => Relay.need_fits hheld hn

theorem run_sized {ls : List Label} {s : State} {es : List Event}
    (hr : (machine agentErrorBody).run .initial ls = some (s, es)) : Sized s :=
  Machine.run_invariant (P := Sized) (fun h hs => h.step agentErrorBody_fits.1 hs) .initial hr

/-- **Nothing is too large.**  In every run of the daemon, whatever the clients and the
device send: what a thread has framed, a request or a stop for the device, a frame or an
ERROR for its client, can be framed, and `FrameTooLarge` ends no connection. -/
theorem never_too_large {ls : List Label} {s : State} {es : List Event}
    (hr : (machine agentErrorBody).run .initial ls = some (s, es)) (i : Nat) :
    (∀ about typ seq payload,
      (s.threads i).phase.need agentErrorBody = .write about typ seq payload →
        ∃ bytes, frameBytes typ 0 seq payload = some bytes) ∧
    ∀ kind d typ flags payload,
      (s.threads i).phase.need agentErrorBody = .forward kind d typ flags payload →
        ∃ bytes, frameBytes typ flags d.seq payload = some bytes := by
  have hsized := run_sized hr
  have hfits : ∀ {payload}, ((s.threads i).phase.need agentErrorBody).payload = some payload →
      payload.length ≤ 0xFFFF :=
    Phase.need_fits (hsized.asks i) (hsized.held i) (hsized.greets i)
  refine ⟨fun _ typ seq _ hn => ?_, fun _ d typ flags _ hn => ?_⟩
  · exact ⟨_, frameBytes_eq typ 0 seq (hfits (congrArg Need.payload hn))⟩
  · exact ⟨_, frameBytes_eq typ flags d.seq (hfits (congrArg Need.payload hn))⟩

/-- A client that greets the daemon while there is no device. -/
def greetAlone : List Label :=
  [.client 0 (.read (.data helloFrame.wire)), .client 0 .go, .client 0 .go, .client 0 .go]

theorem never_too_large_alone : ∃ (s : State) (es : List Event) (bytes : List UInt8),
    (machine agentErrorBody).run .initial greetAlone = some (s, es) ∧
      frameBytes .error 0 7 (agentErrorBody errInternal "device not connected") = some bytes := by
  obtain ⟨es, hr⟩ := Machine.run_of_isSome
    (show ((machine agentErrorBody).run .initial greetAlone).isSome = true by decide +kernel)
  obtain ⟨bytes, hbytes⟩ := (never_too_large hr 0).1 .hello .error 7
    (agentErrorBody errInternal "device not connected") (by decide +kernel)
  exact ⟨_, es, bytes, hr, hbytes⟩

end FlipLink.Daemon

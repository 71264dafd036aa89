/-
# `FlipLink.Link.Probe` — the two ends of a link probe

The host builds the parameters of a link probe and takes its result apart, the firmware
does the opposite, and the limits are written down on both sides: 60 bytes of payload and
of preview, and a timeout from 100 ms to 5 s, of nanoseconds here and of milliseconds
there.

What the host accepts the firmware accepts and reads as it was meant
(`firmware_reads`), and so it is with the reply (`host_reads`).  There the preview is the
invariant of the loop that waits: after any number of partial reads it is the front of
what has been read (`probeLoop_received`).
-/
import FlipLink.Client.LinkProbe
import FlipLink.Firmware.SubghzRadio
import FlipLink.Proto.ValueCodec

namespace FlipLink

open Lib LinkProbe

variable {ε : Type} {cb : Minicbor ε}

/-- A value in its normal form is read back as it is. -/
theorem Value.decode_of_norm (hcb : cb.Lawful) {v : Value} (hfits : v.Fits) (hnorm : v.norm = v) :
    Value.decode cb (Value.encode cb v) = .ok (v, []) := by
  have hread := Value.decodeN_encode hcb v hfits _ (Nat.le_succ _) []
  rwa [List.append_nil, hnorm] at hread

/-! ## The request -/

/-- The firmware reads off the parameters what the host has put into them. -/
theorem firmware_reads {frequency : UInt32} {payload : List UInt8} {timeout : Nat}
    {params : Value} (h : linkProbeParams frequency payload timeout = .ok params) :
    Subghz.requiredFrequency params = .ok frequency ∧ Subghz.probePayload params = .ok payload ∧
      ∃ timeoutMs, Subghz.probeTimeoutMs params = .ok timeoutMs ∧
        timeout = fromMillis timeoutMs.toNat := by
  obtain ⟨hne, hlen, ms, rfl, hlow, hhigh, rfl⟩ := linkProbeParams_fields h
  refine ⟨?_, ?_, UInt32.ofNat ms, ?_, ?_⟩
  · show Except.ok frequency.toUInt64.toUInt32 = _
    rw [UInt32.toUInt32_toUInt64]
  · show (if payload.isEmpty = true then _
      else if payload.length > Subghz.maxLinkProbeBytes then _ else Except.ok payload) = _
    have hshort : ¬ payload.length > Subghz.maxLinkProbeBytes := Nat.not_lt.mpr hlen
    rw [if_neg (List.isEmpty_iff.not.mpr hne), if_neg hshort]
  · show (if UInt64.ofNat ms < Subghz.minLinkProbeTimeoutMs ∨
      UInt64.ofNat ms > Subghz.maxLinkProbeTimeoutMs then _
      else Except.ok (UInt64.ofNat ms).toUInt32) = _
    have hnat : (UInt64.ofNat ms).toNat = ms :=
      UInt64.toNat_ofNat_of_lt (show ms < 2 ^ 64 by omega)
    have hrange : ¬(UInt64.ofNat ms < Subghz.minLinkProbeTimeoutMs ∨
        UInt64.ofNat ms > Subghz.maxLinkProbeTimeoutMs) := by
      rw [gt_iff_lt, UInt64.lt_iff_toNat_lt, UInt64.lt_iff_toNat_lt, hnat]
      have hmin : Subghz.minLinkProbeTimeoutMs.toNat = 100 := rfl
      have hmax : Subghz.maxLinkProbeTimeoutMs.toNat = 5000 := rfl
      omega
    rw [if_neg hrange]
    congr 1
    apply UInt32.toNat_inj.mp
    rw [UInt64.toNat_toUInt32, hnat, UInt32.toNat_ofNat']
  · rw [UInt32.toNat_ofNat_of_lt' (show ms < 2 ^ 32 by omega)]

/-! ## The loop that waits -/

namespace Subghz

/-- What the worker delivers in the next `left` ms, in order. -/
def received (hal : RadioHal) : (left waited : Nat) → List UInt8
  | 0, _ => []
  | left + 1, waited =>
      (if hal.workerAvailable waited > 0 then
        hal.workerRead waited (min (hal.workerAvailable waited) maxLinkProbeBytes)
      else []) ++ received hal left (waited + 1)

/-- The worker delivers no more than it is asked for. -/
def RadioHal.ReadsAtMost (hal : RadioHal) : Prop :=
  ∀ n want, (hal.workerRead n want).length ≤ want

/-- The locals of the loop when `seen` has been read. -/
def Probe.after (seen : List UInt8) : Probe :=
  { readTotal := saturate seen.length, rxPreview := seen.take maxLinkProbeBytes }

/-- A read, however much of it finds room. -/
theorem Probe.after_append (seen got : List UInt8) :
    { readTotal := saturate ((Probe.after seen).readTotal + got.length)
      rxPreview := (Probe.after seen).rxPreview
        ++ got.take (maxLinkProbeBytes - (Probe.after seen).rxPreview.length) }
      = Probe.after (seen ++ got) := by
  simp only [Probe.after, Probe.mk.injEq]
  constructor
  · simp only [saturate, List.length_append]
    omega
  · rw [List.take_append, List.length_take]
    congr 2
    omega

theorem probeTurn_after (hal : RadioHal) (waited : Nat) (seen : List UInt8) :
    (probeTurn hal waited (.after seen)).1 = .after (seen ++ received hal 1 waited) := by
  rw [received, received, List.append_nil, probeTurn]
  dsimp only
  split_ifs
  · exact Probe.after_append seen _
  · rw [List.append_nil]

/-- The preview is the front of what has been read. -/
theorem probeLoop_received (hal : RadioHal) : ∀ (left waited : Nat) (seen : List UInt8),
    (probeLoop hal left waited (.after seen)).1 = .after (seen ++ received hal left waited)
  | 0, _, seen => by
      rw [received, List.append_nil]
      rfl
  | left + 1, waited, seen => by
      rw [probeLoop]
      dsimp only
      rw [probeTurn_after, probeLoop_received hal left (waited + 1), List.append_assoc]
      congr 2
      rw [received, received, List.append_nil, received]

/-- A millisecond brings no more than a preview. -/
theorem length_received_le {hal : RadioHal} (h : hal.ReadsAtMost) : ∀ left waited : Nat,
    (received hal left waited).length ≤ left * maxLinkProbeBytes
  | 0, _ => Nat.zero_le _
  | left + 1, waited => by
      have hrest := length_received_le h left (waited + 1)
      have hread := h waited (min (hal.workerAvailable waited) maxLinkProbeBytes)
      rw [received, List.length_append, Nat.succ_mul]
      split_ifs
      · omega
      · rw [List.length_nil]
        omega

/-- What a probe returns that has sent so many bytes. -/
def Probe.reply (p : Probe) (sent : Nat) (callbacks : UInt32) : Value :=
  .map [("written", .u64 (.ofNat sent)), ("read", .u64 (.ofNat p.readTotal)),
    ("callbacks", .u64 callbacks.toUInt64), ("rx_preview", .bytes p.rxPreview)]

/-- What a probe returns when it succeeds. -/
theorem linkProbe_ok {hal : RadioHal} {active : Bool} {params value : Value} {r : Radio}
    (h : (linkProbe hal active params r).result = .ok value) :
    ∃ payload timeoutMs, probePayload params = .ok payload ∧
      probeTimeoutMs params = .ok timeoutMs ∧
      value = (Probe.after (received hal timeoutMs.toNat 0)).reply payload.length
        hal.callbacks := by
  unfold linkProbe at h
  by_cases hbusy : (active || r.tx.ptr.isSome) = true
  · rw [if_pos hbusy] at h
    cases h
  rw [if_neg hbusy] at h
  cases hfrequency : requiredFrequency params with
  | error e =>
      rw [hfrequency] at h
      cases h
  | ok frequency =>
  cases hpayload : probePayload params with
  | error e =>
      rw [hfrequency, hpayload] at h
      cases h
  | ok payload =>
  cases htimeout : probeTimeoutMs params with
  | error e =>
      rw [hfrequency, hpayload, htimeout] at h
      cases h
  | ok timeoutMs =>
  rw [hfrequency, hpayload, htimeout] at h
  have hloop := probeLoop_received hal timeoutMs.toNat 0 []
  rw [List.nil_append] at hloop
  have hstart : Probe.after [] = { readTotal := 0, rxPreview := [] } := rfl
  rw [hstart] at hloop
  dsimp only at h
  split_ifs at h
  · cases h
    rw [hloop]
    exact ⟨payload, timeoutMs, rfl, rfl, rfl⟩

theorem probePayload_le {params : Value} {payload : List UInt8}
    (h : probePayload params = .ok payload) : payload.length ≤ 60 := by
  unfold probePayload at h
  split at h
  · split_ifs at h with hempty hlong
    cases h
    exact Nat.not_lt.mp hlong
  · cases h

theorem probeTimeoutMs_le {params : Value} {timeoutMs : UInt32}
    (h : probeTimeoutMs params = .ok timeoutMs) : timeoutMs.toNat ≤ 5000 := by
  unfold probeTimeoutMs at h
  generalize ((params.get "timeout_ms").bind asU64).getD defaultLinkProbeTimeoutMs = n at h
  dsimp only at h
  split_ifs at h with hrange
  cases h
  have hle : n.toNat ≤ 5000 := UInt64.not_lt.mp (not_or.mp hrange).2
  rw [UInt64.toNat_toUInt32]
  exact Nat.le_trans (Nat.mod_le _ _) hle

/-- The host reads off the reply what the firmware has put into it. -/
theorem host_reads (hcb : cb.Lawful) {sent : Nat} (hsent : sent ≤ 60) {seen : List UInt8}
    (hseen : seen.length ≤ 300000) (callbacks : UInt32) :
    Value.decode cb (Value.encode cb ((Probe.after seen).reply sent callbacks))
        = .ok ((Probe.after seen).reply sent callbacks, []) ∧
      ∃ result, linkProbeResult ((Probe.after seen).reply sent callbacks) = .ok result ∧
        result.written.toNat = sent ∧ result.read.toNat = seen.length ∧
        result.rxPreview = seen.take 60 := by
  have hpreview : (Probe.after seen).rxPreview.length ≤ 60 := by
    rw [Probe.after, List.length_take]
    exact Nat.min_le_left _ _
  refine ⟨Value.decode_of_norm hcb ⟨show 4 < 2 ^ 64 by decide, ?_⟩ rfl,
    ⟨.ofNat sent, .ofNat (Probe.after seen).readTotal, callbacks.toUInt64,
      (Probe.after seen).rxPreview⟩, ?_, ?_, ?_, rfl⟩
  · exact ⟨by decide, trivial, by decide, trivial, by decide, trivial, by decide,
      show (Probe.after seen).rxPreview.length < 2 ^ 64 by omega, trivial⟩
  · have hfits : requiredPreview ((Probe.after seen).reply sent callbacks)
        = .ok (Probe.after seen).rxPreview := if_pos hpreview
    simp only [linkProbeResult, hfits]
    rfl
  · exact UInt64.toNat_ofNat_of_lt (show sent < 2 ^ 64 by omega)
  · have hsaturate : (Probe.after seen).readTotal = seen.length := by
      simp only [Probe.after, saturate]
      omega
    rw [hsaturate]
    exact UInt64.toNat_ofNat_of_lt (show seen.length < 2 ^ 64 by omega)

/-- **The two ends of a link probe agree.**  The parameters that the host accepts are
decoded as they were encoded, and the firmware reads off them the same frequency,
payload and time.  A probe that succeeds, whatever the worker delivers during the wait,
is encoded and decoded as well, and the host accepts the result: it has the length of
the payload, the number of the bytes read and the first of them. -/
theorem link_probe_agrees (hcb : cb.Lawful) :
    (∀ {frequency : UInt32} {payload : List UInt8} {timeout : Nat} {params : Value},
      linkProbeParams frequency payload timeout = .ok params →
      ∃ p, Value.decode cb (Value.encode cb params) = .ok (p, []) ∧
        requiredFrequency p = .ok frequency ∧ probePayload p = .ok payload ∧
        ∃ timeoutMs, probeTimeoutMs p = .ok timeoutMs ∧ timeout = fromMillis timeoutMs.toNat) ∧
    ∀ {hal : RadioHal} {active : Bool} {p value : Value} {r : Radio} {payload : List UInt8}
      {timeoutMs : UInt32}, hal.ReadsAtMost → probePayload p = .ok payload →
      probeTimeoutMs p = .ok timeoutMs → (linkProbe hal active p r).result = .ok value →
      ∃ v result, Value.decode cb (Value.encode cb value) = .ok (v, []) ∧
        linkProbeResult v = .ok result ∧
        result.written.toNat = payload.length ∧
        result.read.toNat = (received hal timeoutMs.toNat 0).length ∧
        result.rxPreview = (received hal timeoutMs.toNat 0).take
          (min 60 (received hal timeoutMs.toNat 0).length) := by
  constructor
  · intro frequency payload timeout params h
    refine ⟨params, ?_, firmware_reads h⟩
    obtain ⟨-, hlen, ms, -, -, -, rfl⟩ := linkProbeParams_fields h
    refine Value.decode_of_norm hcb ⟨show 3 < 2 ^ 64 by decide, ?_⟩ rfl
    exact ⟨by decide, trivial, by decide, show payload.length < 2 ^ 64 by omega, by decide,
      trivial, trivial⟩
  · intro hal active p value r payload timeoutMs hhal hpayload htimeout h
    obtain ⟨payload', timeoutMs', hpayload', htimeout', rfl⟩ := linkProbe_ok h
    obtain rfl := Except.ok.inj (hpayload'.symm.trans hpayload)
    obtain rfl := Except.ok.inj (htimeout'.symm.trans htimeout)
    have hwait := probeTimeoutMs_le htimeout
    have hread := length_received_le hhal timeoutMs'.toNat 0
    have hseen : (received hal timeoutMs'.toNat 0).length ≤ 300000 := by
      refine Nat.le_trans hread ?_
      simp only [maxLinkProbeBytes]
      omega
    obtain ⟨hdecode, result, hresult, hwritten, htotal, hpreview⟩ :=
      host_reads hcb (probePayload_le hpayload) hseen hal.callbacks
    rw [List.take_eq_take_min] at hpreview
    exact ⟨_, result, hdecode, hresult, hwritten, htotal, hpreview⟩

/-- A worker that delivers two bytes at once and a third a while later. -/
def probedRadio : RadioHal where
  device := true
  frequencyValid := fun _ => true
  begin := true
  alloc := true
  startAsyncTx := true
  txComplete := fun _ => true
  yielded := 0
  regionAllowed := fun _ => true
  workerAlloc := true
  workerStart := true
  workerWrite := true
  workerAvailable := fun n => if n = 0 then 2 else if n = 40 then 1 else 0
  workerRead := fun n want => (if n = 0 then [0x61, 0x62] else [0x63]).take want
  callbacks := 2

/-- A probe of 100 ms. -/
theorem link_probe_agrees_abc :
    ∃ params p value v result,
      linkProbeParams 433920000 [0x68, 0x69] (fromMillis 100) = .ok params ∧
      Value.decode rfc8949 (Value.encode rfc8949 params) = .ok (p, []) ∧
      requiredFrequency p = .ok 433920000 ∧ probePayload p = .ok [0x68, 0x69] ∧
      (linkProbe probedRadio false params .initial).result = .ok value ∧
      Value.decode rfc8949 (Value.encode rfc8949 value) = .ok (v, []) ∧
      linkProbeResult v = .ok result ∧ result.written.toNat = 2 ∧ result.read.toNat = 3 ∧
      result.rxPreview = [0x61, 0x62, 0x63] := by
  let params : Value := .map [("frequency", .u64 433920000), ("payload", .bytes [0x68, 0x69]),
    ("timeout_ms", .u64 100)]
  have hparams : linkProbeParams 433920000 [0x68, 0x69] (fromMillis 100) = .ok params := rfl
  have hran : (linkProbe probedRadio false params .initial).result
      = .ok (.map [("written", .u64 2), ("read", .u64 3), ("callbacks", .u64 2),
          ("rx_preview", .bytes [0x61, 0x62, 0x63])]) := rfl
  have hreads : probedRadio.ReadsAtMost := fun _ _ => List.length_take_le _ _
  obtain ⟨p, hp, hfrequency, hpayload, -⟩ := (link_probe_agrees rfc8949_lawful).1 hparams
  obtain ⟨v, result, hv, hresult, hwritten, hread, hpreview⟩ :=
    @(link_probe_agrees rfc8949_lawful).2 _ _ params _ _ [0x68, 0x69] 100 hreads rfl rfl hran
  exact ⟨_, p, _, v, result, hparams, hp, hfrequency, hpayload, hran, hv, hresult, hwritten,
    hread, hpreview⟩

end Subghz

end FlipLink

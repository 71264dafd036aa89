/-
# `FlipLink.Cli.Invoke` — parameters as they are typed and printed

`flip invoke` takes its parameters off the command line as `key=value` and types each
value by its shape; what comes back is printed.  The two are not inverse to each other:
an integer is printed in its shortest form, however it was typed (`printed_iff`), and an
`I64` that is not negative comes back from the device as a `U64`.  But what is printed,
typed again, is the value that came back (`parseValue_renderValue`).

`sys.echo` has both ends in one command: the arguments into a REQ, the REQ through the
main loop and the handler, the RESP through the client, and its result onto the screen
(`echo_printed`).
-/
import FlipLink.Link.Replay
import FlipLink.Proto.Normal

namespace FlipLink

open Lib Lib.Cbor Lib.Text MainLoop
open DaemonClient (Call invokeResult)
open DeviceLink (Bodies)

namespace Cli

/-! ## `kv.rs` -/

def parseValue (s : String) : Value :=
  if s = "true" then .bool true
  else if s = "false" then .bool false
  else
    match parseBelow (2 ^ 64) s.toList with
    | some u => .u64 (UInt64.ofNat u)
    | none =>
        match parseSigned (2 ^ 63) s.toList with
        | some i => .i64 (Int64.ofInt i)
        | none => .text s

/-- The loop over the arguments. -/
def parsePairs : List String → Except String (List (String × Value))
  | [] => .ok []
  | arg :: args =>
      match splitOnce '=' arg.toList with
      | none => .error ("param '" ++ arg ++ "' is not key=value")
      | some (k, v) =>
          match parsePairs args with
          | .ok pairs => .ok ((String.ofList k, parseValue (String.ofList v)) :: pairs)
          | .error e => .error e

def parseParams (args : List String) : Except String Value :=
  match parsePairs args with
  | .ok pairs => .ok (.map pairs)
  | .error e => .error e

/-! ## `render_value` -/

mutual

def renderValue : Value → String
  | .null => "null"
  | .bool b => if b then "true" else "false"
  | .u64 n => String.ofList (digits n.toNat)
  | .i64 n => String.ofList (signedDigits n.toInt)
  | .text s => s
  | .bytes b => "0x" ++ String.ofList (b.flatMap hexDigits)
  | .array items => "[" ++ ", ".intercalate (renderItems items) ++ "]"
  | .map fields => "\x7b" ++ ", ".intercalate (renderFields fields) ++ "\x7d"

def renderItems : List Value → List String
  | [] => []
  | v :: items => renderValue v :: renderItems items

def renderFields : List (String × Value) → List String
  | [] => []
  | (key, v) :: fields => (key ++ ": " ++ renderValue v) :: renderFields fields

end

/-- `Cmd::Invoke`, with what `flip_client::invoke` comes to. -/
def invoke (call : Call → Except String Resp) (instrument opcode : String)
    (params : List String) : Except String String :=
  match parseParams params with
  | .ok params =>
      match call (.invoke instrument opcode params) with
      | .ok resp => .ok (renderValue resp.result)
      | .error e => .error e
  | .error e => .error e

mutual

/-- What a value is written and read back as does not show. -/
theorem renderValue_norm : ∀ v : Value, renderValue v.norm = renderValue v
  | .null | .bool _ | .u64 _ | .text _ | .bytes _ => rfl
  | .i64 n => by
      by_cases hn : 0 ≤ n.toInt
      · have hlt : n.toInt < 2 ^ 63 := n.toInt_lt
        have hsize : n.toInt.toNat < UInt64.size := by
          simp only [UInt64.size]
          omega
        rw [Value.norm, if_pos hn, renderValue, renderValue, UInt64.toNat_ofNat_of_lt' hsize,
          signedDigits, if_neg hn.not_gt]
        congr 2
        omega
      · rw [Value.norm, if_neg hn]
  | .array items => by rw [Value.norm, renderValue, renderValue, renderItems_norm items]
  | .map fields => by rw [Value.norm, renderValue, renderValue, renderFields_norm fields]

theorem renderItems_norm : ∀ items : List Value,
    renderItems (Value.normItems items) = renderItems items
  | [] => rfl
  | v :: items => by
      rw [Value.normItems, renderItems, renderItems, renderValue_norm v, renderItems_norm items]

theorem renderFields_norm : ∀ fields : List (String × Value),
    renderFields (Value.normEntries fields) = renderFields fields
  | [] => rfl
  | (key, v) :: fields => by
      rw [Value.normEntries, renderFields, renderFields, renderValue_norm v,
        renderFields_norm fields]

end

/-! ## A value as it is typed and printed -/

/-- The integer that a text is typed as. -/
def integer (cs : List Char) : Option Int :=
  match parseBelow (2 ^ 64) cs with
  | some n => some n
  | none => parseSigned (2 ^ 63) cs

/-- What is printed of a value that was typed. -/
def printed (s : String) : String :=
  match integer s.toList with
  | some i => String.ofList (signedDigits i)
  | none => s

/-- The values that a text can be typed as. -/
inductive Typed (s : String) : Value → Prop
  | yes (h : s = "true") : Typed s (.bool true)
  | no (h : s = "false") : Typed s (.bool false)
  | u64 (n : Nat) (hn : n < 2 ^ 64) (h : integer s.toList = some (n : Int)) :
      Typed s (.u64 (.ofNat n))
  | i64 (i : Int) (hlow : -2 ^ 63 ≤ i) (hhigh : i < 2 ^ 63) (h : integer s.toList = some i) :
      Typed s (.i64 (.ofInt i))
  | text (h : integer s.toList = none) (htrue : s ≠ "true") (hfalse : s ≠ "false") :
      Typed s (.text s)

theorem typed_parseValue (s : String) : Typed s (parseValue s) := by
  unfold parseValue
  split_ifs with htrue hfalse
  · exact .yes htrue
  · exact .no hfalse
  · split
    · rename_i n hn
      exact .u64 n (parseBelow_lt hn) (by rw [integer, hn])
    · rename_i hn
      split
      · rename_i i hi
        obtain ⟨hlow, hhigh⟩ := parseSigned_bounds hi
        exact .i64 i (by omega) (by omega) (by rw [integer, hn]; exact hi)
      · rename_i hi
        exact .text (by rw [integer, hn]; exact hi) htrue hfalse

theorem Typed.printed {s : String} {v : Value} : Typed s v → renderValue v = printed s
  | .yes h => by
      subst h
      rfl
  | .no h => by
      subst h
      rfl
  | .u64 n hn h => by
      rw [Cli.printed, h, renderValue, UInt64.toNat_ofNat_of_lt' hn]
      exact congrArg String.ofList (signedDigits_natCast n).symm
  | .i64 i hlow hhigh h => by
      rw [Cli.printed, h, renderValue, Int64.toInt_ofInt_of_le hlow hhigh]
  | .text h _ _ => by
      rw [Cli.printed, h, renderValue]

theorem signedDigits_ne_cons {i : Int} {c : Char} {ds : List Char} (hc : c.isDigit = false)
    (hminus : c ≠ '-') : signedDigits i ≠ c :: ds := by
  unfold signedDigits
  split_ifs with hneg
  · exact fun h => hminus (List.cons.inj h).1.symm
  · exact digits_ne_cons hc

/-- The digits of an integer, as they are typed. -/
theorem parseValue_signedDigits {i : Int} (hlow : -2 ^ 63 ≤ i) (hhigh : i < 2 ^ 64) :
    parseValue (String.ofList (signedDigits i))
      = if i < 0 then .i64 (.ofInt i) else .u64 (.ofNat i.natAbs) := by
  have hword : ∀ {w : String} {c : Char} {cs : List Char}, w.toList = c :: cs →
      c.isDigit = false → c ≠ '-' → String.ofList (signedDigits i) ≠ w := by
    intro w c cs hw hc hminus heq
    refine @signedDigits_ne_cons i c cs hc hminus ?_
    rw [← hw, ← heq, String.toList_ofList]
  rw [parseValue, if_neg (hword (w := "true") rfl (by decide) (by decide)),
    if_neg (hword (w := "false") rfl (by decide) (by decide)), String.toList_ofList,
    parseBelow_signedDigits (by omega)]
  split_ifs with hneg
  · dsimp only
    rw [parseSigned_neg hneg (by omega)]
  · rfl

/-- What is printed, typed again, is the value that the device has sent back. -/
theorem Typed.again {s : String} {v : Value} (h : Typed s v) :
    parseValue (renderValue v) = v.norm := by
  cases h with
  | yes h => rfl
  | no h => rfl
  | u64 n hn h =>
      have hpos : ¬ (n : Int) < 0 := (Int.natCast_nonneg n).not_gt
      rw [renderValue, UInt64.toNat_ofNat_of_lt' hn, ← signedDigits_natCast,
        parseValue_signedDigits (by omega) (by omega), if_neg hpos, Int.natAbs_natCast]
      rfl
  | i64 i hlow hhigh h =>
      rw [renderValue, Value.norm, Int64.toInt_ofInt_of_le hlow hhigh,
        parseValue_signedDigits hlow (by omega)]
      by_cases hneg : i < 0
      · rw [if_pos hneg, if_neg (by omega)]
      · rw [if_neg hneg, if_pos (by omega), show i.natAbs = i.toNat by omega]
  | text h htrue hfalse =>
      unfold integer at h
      split at h
      · cases h
      · rename_i hnone
        rw [renderValue, parseValue, if_neg htrue, if_neg hfalse, hnone]
        dsimp only
        rw [h]
        rfl

/-- **What is typed and what is printed.**  A value is printed as it was typed, unless it is an
integer in range that is written with a plus sign or a zero before its digits (`-0` included),
which is printed without; and what is printed, typed again, is the value that comes back from
the device and is printed the same. -/
theorem printed_iff (s : String) :
    (renderValue (parseValue s) = s ↔ ∀ i, integer s.toList = some i → ¬ Padded s.toList) ∧
      parseValue (renderValue (parseValue s)) = (parseValue s).norm ∧
      renderValue (parseValue (renderValue (parseValue s))) = renderValue (parseValue s) := by
  have htyped := typed_parseValue s
  refine ⟨?_, htyped.again, by rw [htyped.again, renderValue_norm]⟩
  rw [htyped.printed, printed]
  cases hi : integer s.toList with
  | none => exact iff_of_true rfl fun _ h => by cases h
  | some i =>
      have hiff : s.toList = signedDigits i ↔ ¬ Padded s.toList := by
        unfold integer at hi
        split at hi
        · rename_i n hn
          cases hi
          exact parseBelow_eq_iff hn
        · exact parseSigned_eq_iff hi
      have hstr : String.ofList (signedDigits i) = s ↔ s.toList = signedDigits i :=
        ⟨fun h => by rw [← h, String.toList_ofList],
          fun h => by rw [← h, String.ofList_toList]⟩
      refine (hstr.trans hiff).trans ⟨fun h j hj => ?_, fun h => h i rfl⟩
      exact h

/-! ## The arguments -/

/-- An argument, as it is typed. -/
def argument (p : String × String) : String := p.1 ++ "=" ++ p.2

/-- The parameters that arguments are parsed as. -/
def paramsOf (pairs : List (String × String)) : Value :=
  .map (pairs.map fun p => (p.1, parseValue p.2))

theorem splitOnce_argument {p : String × String} (h : '=' ∉ p.1.toList) :
    splitOnce '=' (argument p).toList = some (p.1.toList, p.2.toList) := by
  rw [argument, String.toList_append, String.toList_append, List.append_assoc]
  exact splitOnce_append _ h

theorem parsePairs_arguments {pairs : List (String × String)}
    (h : ∀ p ∈ pairs, '=' ∉ p.1.toList) :
    parsePairs (pairs.map argument) = .ok (pairs.map fun p => (p.1, parseValue p.2)) := by
  induction pairs with
  | nil => rfl
  | cons p pairs ih =>
      obtain ⟨hp, hpairs⟩ := List.forall_mem_cons.mp h
      rw [List.map_cons, parsePairs, splitOnce_argument hp]
      dsimp only
      rw [ih hpairs, String.ofList_toList, String.ofList_toList]
      rfl

theorem parseParams_arguments {pairs : List (String × String)}
    (h : ∀ p ∈ pairs, '=' ∉ p.1.toList) :
    parseParams (pairs.map argument) = .ok (paramsOf pairs) := by
  rw [parseParams, parsePairs_arguments h]
  rfl

/-- The first argument without a `=` is named, and no request is made. -/
theorem invoke_refused {bad : String} (hbad : '=' ∉ bad.toList) (after : List String)
    (call : Call → Except String Resp) (instrument opcode : String) {before : List String}
    (hbefore : ∀ arg ∈ before, '=' ∈ arg.toList) :
    invoke call instrument opcode (before ++ bad :: after)
      = .error ("param '" ++ bad ++ "' is not key=value") := by
  have hpairs : parsePairs (before ++ bad :: after)
      = .error ("param '" ++ bad ++ "' is not key=value") := by
    induction before with
    | nil => rw [List.nil_append, parsePairs, splitOnce_eq_none hbad]
    | cons arg before ih =>
        obtain ⟨harg, hrest⟩ := List.forall_mem_cons.mp hbefore
        obtain ⟨k, v, hkv⟩ := splitOnce_of_mem harg
        rw [List.cons_append, parsePairs, hkv]
        dsimp only
        rw [ih hrest]
  rw [invoke, parseParams, hpairs]

theorem renderFields_params (pairs : List (String × String)) :
    renderFields (pairs.map fun p => (p.1, parseValue p.2))
      = pairs.map fun p => p.1 ++ ": " ++ printed p.2 := by
  induction pairs with
  | nil => rfl
  | cons p pairs ih =>
      rw [List.map_cons, renderFields, ih, (typed_parseValue p.2).printed, List.map_cons]

/-! ## `flip invoke sys echo` -/

section Echo

variable {ε : Type} {cb : Minicbor ε} {fromPayload : List UInt8 → Option Req} {b : Bodies}

/-- The REQ of the command. -/
def echoBody (b : Bodies) (pairs : List (String × String)) : List UInt8 :=
  ((Call.invoke "sys" "echo" (paramsOf pairs)).frame b).payload

theorem echoBody_eq (hb : ReadsReplies cb b) (pairs : List (String × String)) :
    echoBody b pairs = reqBody (Value.encode cb) ⟨"sys", "echo", paramsOf pairs⟩ := by
  rw [echoBody, Call.frame, hb.value]

/-- **`flip invoke sys echo`, end to end.**  For any arguments with a `=` whose REQ fits the
main loop: in whatever pieces it arrives, the loop dispatches it, the device answers with one
frame and is left as it was, and once the client gets that frame, the command prints the keys
in order, each with its value as `printed_iff` says. -/
theorem echo_printed (hcb : cb.Lawful) (hreq : ReadsReq cb fromPayload) (hb : ReadsReplies cb b)
    {pairs : List (String × String)} (hkeys : ∀ p ∈ pairs, '=' ∉ p.1.toList)
    (hsize : (echoBody b pairs).length + 13 ≤ maxFrame) {seq : UInt16} {loop : Loop}
    {ts : List Turn} (hacc : loop.acc = []) (hidle : loop.idle < maxIdle)
    (hts : ∀ t ∈ ts, Piece t)
    (hwire : (ts.map Turn.got).flatten = wire .req 0 seq (echoBody b pairs)) (hal : Device.Hal)
    (d : Device) :
    (run loop ts).1 = [.handleFrame .req seq (echoBody b pairs)] ∧
      ∃ m, Device.handleFrame fromPayload hal .req seq (echoBody b pairs) d = (d, [m]) ∧
        ∀ call : Call → Except String Resp,
          call (.invoke "sys" "echo" (paramsOf pairs)) = invokeResult b (.ok (m.relayed cb)) →
            invoke call "sys" "echo" (pairs.map argument) = .ok ("\x7b" ++
              ", ".intercalate (pairs.map fun p => p.1 ++ ": " ++ printed p.2) ++ "\x7d") := by
  refine ⟨request_dispatched hsize hacc hidle hts hwire, ?_⟩
  have hfits : (paramsOf pairs).Fits := by
    refine Value.fits_of_length hcb ?_
    rw [echoBody_eq hb, reqBody, List.length_append] at hsize
    simp only [maxFrame] at hsize
    omega
  have hhandled : Device.handleFrame fromPayload hal .req seq (echoBody b pairs) d
      = (d, [answer seq (dispatch hal.hardware "sys" "echo" (paramsOf pairs).norm)]) := by
    rw [echoBody_eq hb]
    exact handleFrame_request hreq (by decide) (by decide) hfits rfl hal seq d
  refine ⟨_, hhandled, fun call hcall => ?_⟩
  have hecho : dispatch hal.hardware "sys" "echo" (paramsOf pairs).norm
      = .ok (paramsOf pairs).norm := rfl
  have hresp := hb.resp _ (Value.fits_norm hfits)
  rw [hecho] at hcall
  simp only [invokeResult, answer, Sent.relayed, Sent.typ, Sent.payload, hresp] at hcall
  rw [invoke, parseParams_arguments hkeys]
  dsimp only
  rw [hcall]
  dsimp only
  rw [renderValue_norm, renderValue_norm, paramsOf, renderValue, renderFields_params]

end Echo

/-- `n=007` and `msg=hi`. -/
def typedPairs : List (String × String) := [("n", "007"), ("msg", "hi")]

theorem echo_printed_seven : ∃ m,
    Device.handleFrame (readReq rfc8949) Replies.sysHal .req 7
        (echoBody (hostBodies rfc8949) typedPairs) .initial = (.initial, [m]) ∧
      invoke (fun _ => invokeResult (hostBodies rfc8949) (.ok (m.relayed rfc8949))) "sys" "echo"
          ["n=007", "msg=hi"] = .ok "\x7bn: 7, msg: hi\x7d" := by
  obtain ⟨-, m, hm, hprinted⟩ := echo_printed rfc8949_lawful (readsReq_readReq rfc8949_lawful)
    (readsReplies_hostBodies rfc8949_lawful)
    (show ∀ p ∈ typedPairs, '=' ∉ p.1.toList by decide) (by decide)
    (show Loop.new.acc = [] from rfl) (by decide) singles_piece (singles_got _) Replies.sysHal
    .initial
  exact ⟨m, hm, (hprinted _ rfl).trans rfl⟩

end Cli

end FlipLink

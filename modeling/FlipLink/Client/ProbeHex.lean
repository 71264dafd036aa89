/-
# `FlipLink.Client.ProbeHex` — the payload of a link probe as it is typed

`parse_probe_hex` of `subghz.rs`.  The pieces of the input are joined, each without
its `0x`, and the result is cut at byte offsets, which panics inside a character of
several bytes: `none` stands for that.  It does not happen, because the digits have been
looked at before, byte by byte (`parseProbeHex_eq`).

Which digits are in which piece makes no difference, so a payload may be typed with blanks
anywhere (`cleaned_typed`).
-/
import FlipLink.Client.LinkProbe
import FlipLink.Lib.Text

namespace FlipLink.LinkProbe

open Lib Text

/-- `strip_prefix("0x")`, and the piece as it is where there is none. -/
def dropMark : List Char → List Char
  | '0' :: 'x' :: cs => cs
  | cs => cs

/-- `cleaned`: the pieces, joined. -/
def cleaned (input : String) : List Char := (words input.toList).flatMap dropMark

/-- `is_ascii_hexdigit`. -/
def isAsciiHexdigit (b : UInt8) : Bool :=
  (48 ≤ b && b ≤ 57) || (65 ≤ b && b ≤ 70) || (97 ≤ b && b ≤ 102)

/-- The loop over the indices. -/
def pushBytes (cleaned : List Char) : List Nat → List UInt8 →
    Option (Except String (List UInt8))
  | [], out => some (.ok out)
  | index :: indices, out =>
      match sliceBytes cleaned index (index + 2) with
      | none => none
      | some pair =>
          match parseHexBelow 256 pair with
          | some byte => pushBytes cleaned indices (out ++ [.ofNat byte])
          | none => some (.error ("invalid hex byte '" ++ String.ofList pair ++ "'"))

/-- `(0..len).step_by(2)`. -/
def stepBy2 (len : Nat) : List Nat := List.range' 0 ((len + 1) / 2) 2

def parseProbeHex (input : String) : Option (Except String (List UInt8)) :=
  let cleaned := cleaned input
  if !(asBytes cleaned).all isAsciiHexdigit then
    some (.error "hex payload contains non-hex digits")
  else if (asBytes cleaned).length % 2 ≠ 0 then
    some (.error "hex payload must contain an even number of digits")
  else
    match pushBytes cleaned (stepBy2 (asBytes cleaned).length) [] with
    | some (.ok out) =>
        match validateProbePayload out with
        | .ok () => some (.ok out)
        | .error e => some (.error e)
    | r => r

/-! ## What is accepted -/

theorem validateProbePayload_iff {payload : List UInt8} :
    validateProbePayload payload = .ok () ↔ payload ≠ [] ∧ payload.length ≤ 60 := by
  refine ⟨validateProbePayload_ok, fun ⟨hne, hlen⟩ => ?_⟩
  have hshort : ¬ payload.length > maxLinkProbeBytes := Nat.not_lt.mpr hlen
  rw [validateProbePayload, if_neg (List.isEmpty_iff.not.mpr hne), if_neg hshort]

theorem ascii_of_isHexDigit {cs : List Char} (h : ∀ c ∈ cs, isHexDigit c = true) :
    ∀ c ∈ cs, c.toNat < 128 := by
  intro c hc
  have := isHexDigit_iff.mp (h c hc)
  omega

/-- Looking at the bytes is looking at the characters. -/
theorem all_isAsciiHexdigit {cs : List Char} :
    (asBytes cs).all isAsciiHexdigit = true ↔ ∀ c ∈ cs, isHexDigit c = true := by
  have hchar : ∀ c : Char, (∀ b ∈ String.utf8EncodeChar c, isAsciiHexdigit b = true)
      ↔ isHexDigit c = true := by
    intro c
    by_cases hc : c.toNat < 128
    · have hval : (c.val.toUInt8).toNat = c.toNat := by
        rw [UInt32.toNat_toUInt8]
        exact Nat.mod_eq_of_lt (Nat.lt_trans hc (by decide))
      rw [String.utf8EncodeChar_eq_singleton (utf8Size_of_lt hc), List.forall_mem_singleton,
        isHexDigit_iff]
      simp only [isAsciiHexdigit, Bool.or_eq_true, Bool.and_eq_true, decide_eq_true_eq, or_assoc,
        UInt8.le_iff_toNat_le, hval]
      exact Iff.rfl
    · obtain ⟨b, hb, hhigh⟩ := exists_high_byte (Nat.not_lt.mp hc)
      constructor
      · intro h
        have := h b hb
        simp only [isAsciiHexdigit, Bool.or_eq_true, Bool.and_eq_true, decide_eq_true_eq,
          UInt8.le_iff_toNat_le] at this
        have h57 : (57 : UInt8).toNat = 57 := rfl
        have h70 : (70 : UInt8).toNat = 70 := rfl
        have h102 : (102 : UInt8).toNat = 102 := rfl
        omega
      · intro h
        have := isHexDigit_iff.mp h
        omega
  rw [List.all_eq_true]
  constructor
  · exact fun h c hc => (hchar c).mp fun b hb => h b (List.mem_flatMap.mpr ⟨c, hc, hb⟩)
  · intro h b hb
    obtain ⟨c, hc, hbc⟩ := List.mem_flatMap.mp hb
    exact (hchar c).mpr (h c hc) b hbc

/-- The loop from a pair on: no slice fails. -/
theorem pushBytes_digits {cs : List Char} (h : ∀ c ∈ cs, isHexDigit c = true) :
    ∀ (k i : Nat) (out : List UInt8), i + 2 * k = cs.length →
      pushBytes cs (List.range' i k 2) out = some (.ok (out ++ pairValues (cs.drop i)))
  | 0, i, out, hlen => by
      rw [List.drop_of_length_le (by omega), pairValues, List.append_nil]
      · rfl
      · intro _ _ _ hnil
        cases hnil
  | k + 1, i, out, hlen => by
      have hi : i < cs.length := by omega
      have hi' : i + 1 < cs.length := by omega
      have hdrop : cs.drop i = cs[i] :: cs[i + 1] :: cs.drop (i + 2) := by
        rw [List.drop_eq_getElem_cons hi, List.drop_eq_getElem_cons hi']
      have hpair : sliceBytes cs i (i + 2) = some [cs[i], cs[i + 1]] := by
        rw [sliceBytes_ascii (ascii_of_isHexDigit h) (by omega), hdrop]
        rfl
      rw [List.range'_succ, pushBytes, hpair]
      dsimp only
      rw [parseHexBelow_pair (h _ (List.getElem_mem hi)) (h _ (List.getElem_mem hi'))]
      dsimp only
      rw [pushBytes_digits h k (i + 2) _ (by omega), hdrop, pairValues, List.append_assoc,
        List.singleton_append]

/-- What `parse_probe_hex` comes down to. -/
theorem parseProbeHex_eq (input : String) :
    parseProbeHex input
      = some (if !(cleaned input).all isHexDigit then
          .error "hex payload contains non-hex digits"
        else if (cleaned input).length % 2 ≠ 0 then
          .error "hex payload must contain an even number of digits"
        else
          match validateProbePayload (pairValues (cleaned input)) with
          | .ok () => .ok (pairValues (cleaned input))
          | .error e => .error e) := by
  rw [parseProbeHex]
  generalize cleaned input = cs
  by_cases hall : ∀ c ∈ cs, isHexDigit c = true
  · have hnot : ¬ (!true) = true := by decide
    rw [all_isAsciiHexdigit.mpr hall, List.all_eq_true.mpr hall,
      length_asBytes (ascii_of_isHexDigit hall), if_neg hnot, if_neg hnot]
    split_ifs with heven
    · rfl
    · have hloop := pushBytes_digits hall ((cs.length + 1) / 2) 0 [] (by omega)
      rw [List.drop_zero, List.nil_append] at hloop
      rw [stepBy2, hloop]
      dsimp only
      cases validateProbePayload (pairValues cs) <;> rfl
  · rw [Bool.eq_false_iff.mpr (all_isAsciiHexdigit.not.mpr hall),
      Bool.eq_false_iff.mpr (List.all_eq_true.not.mpr hall)]
    rfl

theorem parseProbeHex_ok (input : String) (bytes : List UInt8) :
    parseProbeHex input = some (.ok bytes) ↔
      (∀ c ∈ cleaned input, isHexDigit c = true) ∧ (cleaned input).length % 2 = 0 ∧
        2 ≤ (cleaned input).length ∧ (cleaned input).length ≤ 120 ∧
        bytes = pairValues (cleaned input) := by
  rw [parseProbeHex_eq, Option.some.injEq]
  have hlen := length_pairValues (cleaned input)
  constructor
  · intro h
    split_ifs at h with hall heven
    split at h
    · rename_i hvalid
      obtain ⟨hne, hle⟩ := validateProbePayload_ok hvalid
      have hpos := List.length_pos_of_ne_nil hne
      rw [Bool.not_eq_true, Bool.not_eq_false', List.all_eq_true] at hall
      refine ⟨hall, by omega, by omega, by omega, ?_⟩
      exact (Except.ok.inj h).symm
    · cases h
  · rintro ⟨hall, heven, hmin, hmax, rfl⟩
    have hne : pairValues (cleaned input) ≠ [] := List.ne_nil_of_length_pos (by omega)
    have hvalid := validateProbePayload_iff.mpr ⟨hne, by omega⟩
    rw [List.all_eq_true.mpr hall, if_neg (by decide), if_neg (not_not.mpr heven), hvalid]

/-! ## How a payload may be typed -/

/-- Some digits, with or without `0x`, and the blanks behind them. -/
structure Piece where
  marked : Bool
  digits : List Char
  blanks : List Char
  white : ∀ c ∈ blanks, isWhitespace c = true

namespace Piece

/-- The piece without the blanks. -/
def token (p : Piece) : List Char := (if p.marked then ['0', 'x'] else []) ++ p.digits

def text (p : Piece) : List Char := p.token ++ p.blanks

end Piece

theorem words_token {p : Piece} (h : ∀ c ∈ p.digits, isHexDigit c = true) :
    (words p.token).flatMap dropMark = p.digits := by
  have hdrop : dropMark p.token = p.digits := by
    rw [Piece.token]
    cases p.marked with
    | true => rfl
    | false =>
        show dropMark p.digits = p.digits
        unfold dropMark
        split
        · rename_i cs heq
          have hx := h 'x' (by rw [heq]; exact List.mem_cons_of_mem _ List.mem_cons_self)
          exact absurd hx (by decide)
        · rfl
  by_cases hnil : p.token = []
  · rw [hnil] at hdrop ⊢
    exact hdrop
  · have hword : Word p.token := by
      refine ⟨hnil, fun c hc => ?_⟩
      rcases List.mem_append.mp hc with hc | hc
      · split_ifs at hc with hmark
        · rcases List.mem_pair.mp hc with rfl | rfl <;> rfl
        · cases hc
      · exact isWhitespace_of_isHexDigit (h c hc)
    rw [hword.words, List.flatMap_singleton, hdrop]

/-- A piece, blanks and the rest. -/
theorem words_text_append {p : Piece} (h : ∀ c ∈ p.digits, isHexDigit c = true)
    (hblanks : p.blanks ≠ []) (cs : List Char) :
    (words (p.text ++ cs)).flatMap dropMark = p.digits ++ (words cs).flatMap dropMark := by
  have hwhite := p.white
  rw [Piece.text]
  cases hb : p.blanks with
  | nil => exact absurd hb hblanks
  | cons c v =>
      rw [hb] at hwhite
      obtain ⟨hc, hv⟩ := List.forall_mem_cons.mp hwhite
      rw [List.append_assoc, List.cons_append, words_append_blank hc, words_blanks_append hv,
        List.flatMap_append, words_token h]

theorem words_pieces {last : Piece} (hlast : ∀ c ∈ last.digits, isHexDigit c = true) :
    ∀ {pieces : List Piece}, (∀ p ∈ pieces, p.blanks ≠ []) →
      (∀ c ∈ pieces.flatMap Piece.digits, isHexDigit c = true) →
      (words (pieces.flatMap Piece.text ++ last.text)).flatMap dropMark
        = pieces.flatMap Piece.digits ++ last.digits
  | [], _, _ => by
      rw [List.flatMap_nil, List.flatMap_nil, List.nil_append, Piece.text,
        words_append_blanks last.white, words_token hlast]
      rfl
  | p :: ps, hblanks, hdigits => by
      obtain ⟨hp, hps⟩ := List.forall_mem_cons.mp hblanks
      rw [List.flatMap_cons] at hdigits
      obtain ⟨hpd, hpsd⟩ := List.forall_mem_append.mp hdigits
      rw [List.flatMap_cons, List.append_assoc, words_text_append hpd hp,
        words_pieces hlast hps hpsd, List.flatMap_cons, List.append_assoc]

/-- Blanks, and pieces with blanks between them and perhaps behind the last. -/
def typed (lead : List Char) (pieces : List Piece) (last : Piece) : String :=
  String.ofList (lead ++ (pieces.flatMap Piece.text ++ last.text))

/-- The digits of a text, whatever the pieces. -/
theorem cleaned_typed {lead : List Char} {pieces : List Piece} {last : Piece}
    (hlead : ∀ c ∈ lead, isWhitespace c = true) (hblanks : ∀ p ∈ pieces, p.blanks ≠ [])
    (hdigits : ∀ c ∈ pieces.flatMap Piece.digits ++ last.digits, isHexDigit c = true) :
    cleaned (typed lead pieces last) = pieces.flatMap Piece.digits ++ last.digits := by
  obtain ⟨hps, hlast⟩ := List.forall_mem_append.mp hdigits
  rw [cleaned, typed, String.toList_ofList, words_blanks_append hlead,
    words_pieces hlast hblanks hps]

/-- **The payload of a probe as it is typed.**  No input makes a slice fail.  Bytes are
returned exactly if the joined pieces are hex digits, an even number of them from 2 to
120, and they are the bytes that the digits stand for.  And a payload of 1 to 60 bytes is
read from every text that has its digits, in upper or lower case, with blanks between
them anywhere and `0x` before any piece. -/
theorem probe_hex_parsed :
    (∀ input, ∃ r, parseProbeHex input = some r) ∧
    (∀ input bytes, parseProbeHex input = some (.ok bytes) ↔
      (∀ c ∈ cleaned input, isHexDigit c = true) ∧ (cleaned input).length % 2 = 0 ∧
        2 ≤ (cleaned input).length ∧ (cleaned input).length ≤ 120 ∧
        bytes = pairValues (cleaned input)) ∧
    ∀ (payload : List UInt8) (lead : List Char) (pieces : List Piece) (last : Piece),
      1 ≤ payload.length → payload.length ≤ 60 →
      (∀ c ∈ lead, isWhitespace c = true) → (∀ p ∈ pieces, p.blanks ≠ []) →
      (pieces.flatMap Piece.digits ++ last.digits).map Char.toLower = payload.flatMap hexDigits →
      parseProbeHex (typed lead pieces last) = some (.ok payload) := by
  refine ⟨fun input => ⟨_, parseProbeHex_eq input⟩, parseProbeHex_ok, ?_⟩
  intro payload lead pieces last hmin hmax hlead hblanks hspelled
  obtain ⟨hdigits, hvalues⟩ := pairValues_of_toLower hspelled
  have hlen : (pieces.flatMap Piece.digits ++ last.digits).length = 2 * payload.length := by
    rw [← List.length_map Char.toLower, hspelled]
    exact length_flatMap_hexDigits payload
  rw [parseProbeHex_ok, cleaned_typed hlead hblanks hdigits]
  exact ⟨hdigits, by omega, by omega, by omega, hvalues.symm⟩

example : parseProbeHex "0x6865 6c6c6f" = some (.ok [0x68, 0x65, 0x6c, 0x6c, 0x6f]) := by
  decide +kernel

/-- Two characters, and four bytes. -/
example : parseProbeHex "€a" = some (.error "hex payload contains non-hex digits") := by
  decide +kernel

end FlipLink.LinkProbe

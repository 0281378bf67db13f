import TagGateway.Proofs.Json.Numeral

/-!
The tokens of what was printed. Main statement: a text that begins with the print of a value begins
with the tokens of that value, provided that no numeral goes on after it.
-/

set_option autoImplicit false

namespace TagGateway.Json

/-- The tokens that are completed from where the scanner stands. -/
def tokensFrom : Mode → Bytes → Option (List Token)
  | mode, [] => mode.finish
  | mode, b :: rest => do
    let (new, mode) ← mode.step b
    let later ← tokensFrom mode rest
    pure (new ++ later)

theorem foldlM_scanOctet (text : Bytes) (tokens : List Token) (mode : Mode) :
    (do
      let (tokens, mode) ← text.foldlM scanOctet (tokens, mode)
      let last ← mode.finish
      pure (tokens.reverse ++ last)) = (tokensFrom mode text).map (tokens.reverse ++ ·) := by
  induction text generalizing tokens mode with
  | nil => cases h : mode.finish <;> simp [tokensFrom, h]
  | cons b rest ih =>
    simp only [List.foldlM_cons, scanOctet, tokensFrom]
    cases h : mode.step b with
    | none => rfl
    | some step =>
      obtain ⟨new, next⟩ := step
      have hrest := ih (new.reverse ++ tokens) next
      simp only [Option.map_some, Option.bind_eq_bind, Option.bind_some] at hrest ⊢
      rw [hrest]
      cases tokensFrom next rest <;> simp

theorem scan_eq (text : Bytes) : scan text = tokensFrom .between text := by
  have h := foldlM_scanOctet text [] .between
  simp only [List.reverse_nil, List.nil_append, Option.map_id'] at h
  exact h

section Steps

variable {mode next : Mode} {b : UInt8} {rest : Bytes}

theorem tokensFrom_step {new : List Token} (h : mode.step b = some (new, next)) :
    tokensFrom mode (b :: rest) = (tokensFrom next rest).map (new ++ ·) := by
  simp only [tokensFrom, h, Option.bind_eq_bind, Option.bind_some]
  cases tokensFrom next rest <;> rfl

theorem tokensFrom_silent (h : mode.step b = some ([], next)) :
    tokensFrom mode (b :: rest) = tokensFrom next rest := by
  rw [tokensFrom_step h]
  cases tokensFrom next rest <;> rfl

end Steps

/-! ## Strings -/

def pieceOf (b : UInt8) : Piece :=
  if b < 0x20 ∧ b ∉ [0x08, 0x09, 0x0A, 0x0C, 0x0D] then .unit b.toNat else .octet b

theorem step_backslash (pieces : List Piece) :
    Mode.step 0x5C (.string pieces) = some ([], .escape pieces) := rfl

theorem digitValue?_control : ∀ n < 32,
    Octets.digitValue? (Char.ofNat (Nat.digitChar (n / 16)).toUInt8.toNat) = some (n / 16)
      ∧ Octets.digitValue? (Char.ofNat (Nat.digitChar (n % 16)).toUInt8.toNat) = some (n % 16) := by
  decide

theorem tokensFrom_control {b : UInt8} (hb : b < 0x20) (pieces : List Piece) (rest : Bytes) :
    tokensFrom (.string pieces)
        (Bytes.ofChars ['\\', 'u', '0', '0', Nat.digitChar (b.toNat / 16),
          Nat.digitChar (b.toNat % 16)] ++ rest)
      = tokensFrom (.string (.unit b.toNat :: pieces)) rest := by
  obtain ⟨hhigh, hlow⟩ := digitValue?_control b.toNat (UInt8.lt_iff_toNat_lt.1 hb)
  have hunit : Mode.step 'u'.toUInt8 (.escape pieces) = some ([], .unit pieces 3 0) := rfl
  have hzero (left code : Nat) : Mode.step '0'.toUInt8 (.unit pieces (left + 1) code)
      = some ([], .unit pieces left (16 * code)) := rfl
  have hfirst : Mode.step (Nat.digitChar (b.toNat / 16)).toUInt8 (.unit pieces 1 0)
      = some ([], .unit pieces 0 (b.toNat / 16)) := by
    simp [Mode.step, hhigh]
  have hlast : Mode.step (Nat.digitChar (b.toNat % 16)).toUInt8 (.unit pieces 0 (b.toNat / 16))
      = some ([], .string (.unit b.toNat :: pieces)) := by
    have hcode : 16 * (b.toNat / 16) + b.toNat % 16 = b.toNat := by omega
    simp [Mode.step, hlow, hcode]
  simp only [Bytes.ofChars, List.map_cons, List.map_nil, List.cons_append, List.nil_append]
  refine (tokensFrom_silent (step_backslash pieces)).trans ?_
  rw [tokensFrom_silent hunit, tokensFrom_silent (hzero 2 0), tokensFrom_silent (hzero 1 0),
    tokensFrom_silent hfirst, tokensFrom_silent hlast]

theorem tokensFrom_printOctet (b : UInt8) (pieces : List Piece) (rest : Bytes) :
    tokensFrom (.string pieces) (printOctet b ++ rest)
      = tokensFrom (.string (pieceOf b :: pieces)) rest := by
  have hescape (letter octet : UInt8)
      (h : Mode.step letter (.escape pieces) = some ([], .string (.octet octet :: pieces))) :
      tokensFrom (.string pieces) (0x5C :: letter :: rest)
        = tokensFrom (.string (.octet octet :: pieces)) rest :=
    (tokensFrom_silent (step_backslash pieces)).trans (tokensFrom_silent h)
  unfold printOctet
  -- Seven octets have an escape of one letter.
  iterate 7
    split
    · next h => subst h; exact hescape _ _ rfl
  split
  · next h =>
    rw [tokensFrom_control h]
    simp_all [pieceOf]
  · next hquote hbackslash _ _ _ _ _ h =>
    have hstep : Mode.step b (.string pieces) = some ([], .string (.octet b :: pieces)) := by
      simp [Mode.step, hquote, hbackslash, h]
    rw [List.singleton_append, tokensFrom_silent hstep]
    simp [pieceOf, h]

theorem tokensFrom_octets (octets : Bytes) (pieces : List Piece) (rest : Bytes) :
    tokensFrom (.string pieces) (octets.flatMap printOctet ++ rest)
      = tokensFrom (.string ((octets.map pieceOf).reverse ++ pieces)) rest := by
  induction octets generalizing pieces with
  | nil => rfl
  | cons b octets ih =>
    rw [List.flatMap_cons, List.append_assoc, tokensFrom_printOctet, ih]
    simp

theorem codePoint_control : ∀ n < 32, codePoint n = [UInt8.ofNat n] := by
  decide +kernel

theorem assemble_map_pieceOf (octets : Bytes) : assemble (octets.map pieceOf) = some octets := by
  induction octets with
  | nil => rfl
  | cons b octets ih =>
    rw [List.map_cons]
    by_cases h : b < 0x20 ∧ b ∉ [0x08, 0x09, 0x0A, 0x0C, 0x0D]
    · have hsmall : b.toNat < 32 := UInt8.lt_iff_toNat_lt.1 h.1
      have hlow : isLowSurrogate b.toNat = false := by simp [isLowSurrogate]; omega
      have hhigh : isHighSurrogate b.toNat = false := by simp [isHighSurrogate]; omega
      rw [show pieceOf b = .unit b.toNat from if_pos h, assemble.eq_def]
      simp [hlow, hhigh, ih, codePoint_control _ hsmall]
    · rw [show pieceOf b = .octet b from if_neg h]
      simp [assemble, ih]

theorem tokensFrom_printString (text : String) (rest : Bytes) :
    tokensFrom .between (printString text ++ rest)
      = (tokensFrom .between rest).map (.text (some text) :: ·) := by
  have hcontent : content ((Bytes.ofString text).map pieceOf).reverse = some text := by
    rw [content, List.reverse_reverse, assemble_map_pieceOf, Option.bind_some,
      Bytes.toString?_ofString]
  have hclose : Mode.step 0x22 (.string ((Bytes.ofString text).map pieceOf).reverse)
      = some ([.text (some text)], .between) := by
    simp [Mode.step, hcontent]
  unfold printString
  rw [List.append_assoc, List.cons_append,
    tokensFrom_silent (show Mode.step 0x22 .between = some ([], .string []) from rfl),
    tokensFrom_octets, List.append_nil, List.singleton_append, tokensFrom_step hclose]
  rfl

/-! ## Numerals -/

def Ends (rest : Bytes) : Prop :=
  ∀ b ∈ rest.head?, isNumeralChar (Char.ofNat b.toNat) = false

theorem ofNat_toUInt8 {c : Char} (h : isNumeralChar c) : Char.ofNat c.toUInt8.toNat = c := by
  have hsmall : c.toNat < 256 := by
    simp only [isNumeralChar, Char.isDigit, Bool.or_eq_true, Bool.and_eq_true, decide_eq_true_eq,
      beq_iff_eq] at h
    obtain ((((⟨-, h⟩ | rfl) | rfl) | rfl) | rfl) | rfl := h
    · exact Nat.lt_of_le_of_lt (UInt32.le_iff_toNat_le.1 h) (by decide)
    all_goals decide
  have hchar : c.toUInt8.toNat = c.toNat := by
    simp only [Char.toUInt8, UInt32.toNat_toUInt8]
    exact Nat.mod_eq_of_lt hsmall
  rw [hchar, Char.ofNat_toNat]

theorem tokensFrom_chars {chars : List Char} (h : ∀ c ∈ chars, isNumeralChar c)
    (digits : List Char) (rest : Bytes) :
    tokensFrom (.numeral digits) (Bytes.ofChars chars ++ rest)
      = tokensFrom (.numeral (chars.reverse ++ digits)) rest := by
  induction chars generalizing digits with
  | nil => rfl
  | cons c chars ih =>
    obtain ⟨hc, hchars⟩ := List.forall_mem_cons.1 h
    have hstep : Mode.step c.toUInt8 (.numeral digits) = some ([], .numeral (c :: digits)) := by
      simp [Mode.step, ofNat_toUInt8 hc, hc]
    rw [Bytes.ofChars, List.map_cons, List.cons_append, tokensFrom_silent hstep]
    exact (ih hchars _).trans (by simp)

theorem tokensFrom_end {n : Numeral} (hn : n.Formed) {rest : Bytes} (hrest : Ends rest) :
    tokensFrom (.numeral n.spell.reverse) rest
      = (tokensFrom .between rest).map (.scalar n.value :: ·) := by
  have hread := Numeral.ofChars?_spell hn
  cases rest with
  | nil => simp [tokensFrom, Mode.finish, hread]
  | cons b rest =>
    have hb : isNumeralChar (Char.ofNat b.toNat) = false := hrest b rfl
    simp only [tokensFrom, Mode.step, hb, List.reverse_reverse, hread, Bool.false_eq_true, if_false]
    cases Mode.enter b with
    | none => rfl
    | some step => cases h : tokensFrom step.2 rest <;> simp [h]

theorem enter_numeral {c : Char} (h : c.isDigit ∨ c = '-') :
    Mode.enter c.toUInt8 = some ([], .numeral [c]) := by
  obtain h | rfl := h
  · simp only [Char.isDigit, Bool.and_eq_true, decide_eq_true_eq] at h
    obtain ⟨n, hlow, hhigh, rfl⟩ : ∃ n, 48 ≤ n ∧ n ≤ 57 ∧ c = Char.ofNat n :=
      ⟨c.toNat, UInt32.le_iff_toNat_le.1 h.1, UInt32.le_iff_toNat_le.1 h.2,
        (Char.ofNat_toNat c).symm⟩
    interval_cases n <;> rfl
  · rfl

theorem tokensFrom_spell {n : Numeral} (hn : n.Formed) {rest : Bytes} (hrest : Ends rest) :
    tokensFrom .between (Bytes.ofChars n.spell ++ rest)
      = (tokensFrom .between rest).map (.scalar n.value :: ·) := by
  obtain ⟨first, more, hspell, hfirst⟩ :
      ∃ first more, n.spell = first :: more ∧ (first.isDigit ∨ first = '-') := by
    obtain ⟨negative, whole, fraction, exponent⟩ := n
    cases negative with
    | true => exact ⟨'-', _, rfl, .inr rfl⟩
    | false =>
      cases whole with
      | nil => exact absurd hn.wholeOk (by simp [Numeral.wholeOk])
      | cons first more => exact ⟨first, _, rfl, .inl (hn.whole first List.mem_cons_self)⟩
  have hmore : ∀ c ∈ more, isNumeralChar c := fun c hc =>
    n.isNumeralChar_of_mem_spell hn (hspell ▸ List.mem_cons_of_mem first hc)
  calc
    _ = tokensFrom .between (first.toUInt8 :: (Bytes.ofChars more ++ rest)) := by rw [hspell]; rfl
    _ = tokensFrom (.numeral [first]) (Bytes.ofChars more ++ rest) :=
      tokensFrom_silent (enter_numeral hfirst)
    _ = tokensFrom (.numeral n.spell.reverse) rest := by
      rw [tokensFrom_chars hmore, hspell, List.reverse_cons]
    _ = _ := tokensFrom_end hn hrest

/-! ## Values -/

mutual

/-- What is read back of a value that was printed. Numbers are those of their texts. -/
@[simp] def reread : Json → Json
  | .int n => (Numeral.ofInt n).value
  | .float x => if x.isFinite then (Numeral.ofFloat x).value else .null
  | .arr items => .arr (rereadItems items)
  | .obj members => .obj (rereadMembers members)
  | .broken => .null
  | value => value

@[simp] def rereadItems : List Json → List Json
  | [] => []
  | item :: rest => item.reread :: rereadItems rest

@[simp] def rereadMembers : List (String × Json) → List (String × Json)
  | [] => []
  | (name, value) :: rest => (name, value.reread) :: rereadMembers rest

end

mutual

@[simp] def tokens : Json → List Token
  | .str text => [.text (some text)]
  | .arr items => .openList :: (tokensOfItems items ++ [.closeList])
  | .obj members => .openRecord :: (tokensOfMembers members ++ [.closeRecord])
  | value => [.scalar value.reread]

@[simp] def tokensOfItems : List Json → List Token
  | [] => []
  | [item] => item.tokens
  | item :: rest => item.tokens ++ .comma :: tokensOfItems rest

@[simp] def tokensOfMembers : List (String × Json) → List Token
  | [] => []
  | [(name, value)] => .text (some name) :: .colon :: value.tokens
  | (name, value) :: rest =>
    .text (some name) :: .colon :: (value.tokens ++ .comma :: tokensOfMembers rest)

end

theorem tokensFrom_word (letters : List Char) (h : letters ≠ []) (value : Json) (rest : Bytes) :
    tokensFrom (.word letters value) (Bytes.ofChars letters ++ rest)
      = (tokensFrom .between rest).map (.scalar value :: ·) := by
  induction letters with
  | nil => exact absurd rfl h
  | cons letter more ih =>
    cases more with
    | nil =>
      have hstep : Mode.step letter.toUInt8 (.word [letter] value)
          = some ([.scalar value], .between) := by simp [Mode.step]
      exact tokensFrom_step hstep
    | cons next more =>
      have hstep : Mode.step letter.toUInt8 (.word (letter :: next :: more) value)
          = some ([], .word (next :: more) value) := by simp [Mode.step]
      exact (tokensFrom_silent hstep).trans (ih (by simp))

theorem ends_cons {b : UInt8} (h : isNumeralChar (Char.ofNat b.toNat) = false) (rest : Bytes) :
    Ends (b :: rest) := by
  intro c hc
  obtain rfl : b = c := by simpa using hc
  exact h

theorem tokensFrom_mark {b : UInt8} {token : Token}
    (h : Mode.step b .between = some ([token], .between)) (rest : Bytes) :
    tokensFrom .between (b :: rest) = (tokensFrom .between rest).map (token :: ·) :=
  tokensFrom_step h

mutual

theorem tokensFrom_print : ∀ (j : Json) {rest : Bytes}, Ends rest →
    tokensFrom .between (j.print ++ rest) = (tokensFrom .between rest).map (j.tokens ++ ·)
  | .null, rest, _ | .broken, rest, _ =>
    (tokensFrom_silent rfl).trans (tokensFrom_word ['u', 'l', 'l'] (by simp) .null rest)
  | .bool true, rest, _ =>
    (tokensFrom_silent rfl).trans (tokensFrom_word ['r', 'u', 'e'] (by simp) _ rest)
  | .bool false, rest, _ =>
    (tokensFrom_silent rfl).trans (tokensFrom_word ['a', 'l', 's', 'e'] (by simp) _ rest)
  | .int n, rest, hrest => by
    rw [print, ← Numeral.spell_ofInt]
    exact tokensFrom_spell (Numeral.formed_ofInt n) hrest
  | .float x, rest, hrest => by
    simp only [print, tokens, reread]
    cases hx : x.isFinite with
    | true =>
      rw [Numeral.spell_ofFloat hx]
      exact tokensFrom_spell (Numeral.formed_ofFloat hx) hrest
    | false =>
      simp only [printFloat, hx]
      exact (tokensFrom_silent rfl).trans (tokensFrom_word ['u', 'l', 'l'] (by simp) .null rest)
  | .str text, rest, _ => tokensFrom_printString text rest
  | .arr items, rest, _ => by
    rw [print, List.cons_append, List.cons_append, tokensFrom_mark rfl, List.append_assoc,
      List.singleton_append, tokensFrom_printItems items rest, Option.map_map]
    simp [Function.comp_def]
  | .obj members, rest, _ => by
    rw [print, List.cons_append, List.cons_append, tokensFrom_mark rfl, List.append_assoc,
      List.singleton_append, tokensFrom_printMembers members rest, Option.map_map]
    simp [Function.comp_def]

theorem tokensFrom_printItems : ∀ (items : List Json) (rest : Bytes),
    tokensFrom .between (printItems items ++ 0x5D :: rest)
      = (tokensFrom .between rest).map (tokensOfItems items ++ .closeList :: ·)
  | [], rest => tokensFrom_mark rfl rest
  | [item], rest => by
    rw [printItems, tokensFrom_print item (ends_cons rfl rest), tokensFrom_mark rfl, Option.map_map]
    rfl
  | item :: next :: more, rest => by
    rw [printItems, List.append_assoc, List.cons_append, tokensFrom_print item (ends_cons rfl _),
      tokensFrom_mark rfl, tokensFrom_printItems (next :: more) rest, Option.map_map,
      Option.map_map]
    · simp [Function.comp_def]
    · simp

theorem tokensFrom_printMembers : ∀ (members : List (String × Json)) (rest : Bytes),
    tokensFrom .between (printMembers members ++ 0x7D :: rest)
      = (tokensFrom .between rest).map (tokensOfMembers members ++ .closeRecord :: ·)
  | [], rest => tokensFrom_mark rfl rest
  | [(name, value)], rest => by
    rw [printMembers, List.append_assoc, tokensFrom_printString, List.cons_append,
      tokensFrom_mark rfl, tokensFrom_print value (ends_cons rfl rest), tokensFrom_mark rfl]
    simp [Function.comp_def]
  | (name, value) :: next :: more, rest => by
    rw [printMembers, List.append_assoc, tokensFrom_printString, List.cons_append,
      tokensFrom_mark rfl, List.append_assoc, List.cons_append,
      tokensFrom_print value (ends_cons rfl _), tokensFrom_mark rfl,
      tokensFrom_printMembers (next :: more) rest]
    · simp [Function.comp_def]
    · simp

end

theorem scan_print (j : Json) : scan j.print = some j.tokens := by
  have hend : Ends [] := by simp [Ends]
  have h := tokensFrom_print j hend
  rw [List.append_nil] at h
  rw [scan_eq, h]
  simp [tokensFrom, Mode.finish]

end TagGateway.Json

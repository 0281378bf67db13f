import TagGateway.Json.Printer
import TagGateway.Json.Scanner
import TagGateway.Proofs.Decimal.Shortest

set_option autoImplicit false

namespace TagGateway.Json.Numeral

def fractionText : Option (List Char) → List Char
  | none => []
  | some digits => '.' :: digits

def exponentText : Option (Bool × List Char) → List Char
  | none => []
  | some (negative, digits) => 'e' :: (if negative then '-' else '+') :: digits

@[simp] theorem fractionText_none : fractionText none = [] := rfl

@[simp] theorem fractionText_some (digits : List Char) :
    fractionText (some digits) = '.' :: digits := rfl

@[simp] theorem exponentText_none : exponentText none = [] := rfl

@[simp] theorem exponentText_some (e : Bool × List Char) :
    exponentText (some e) = 'e' :: (if e.1 then '-' else '+') :: e.2 := rfl

def spell (n : Numeral) : List Char :=
  (if n.negative then ['-'] else [])
    ++ (n.whole ++ (fractionText n.fraction ++ exponentText n.exponent))

structure Formed (n : Numeral) : Prop where
  whole : ∀ c ∈ n.whole, c.isDigit
  wholeOk : Numeral.wholeOk n.whole
  fraction : ∀ digits ∈ n.fraction, digits ≠ [] ∧ ∀ c ∈ digits, c.isDigit
  exponent : ∀ e ∈ n.exponent, e.2 ≠ [] ∧ ∀ c ∈ e.2, c.isDigit

theorem span_digits {digits rest : List Char} (h : ∀ c ∈ digits, c.isDigit)
    (hrest : ∀ c ∈ rest.head?, c.isDigit = false) :
    (digits ++ rest).takeWhile Char.isDigit = digits
      ∧ (digits ++ rest).dropWhile Char.isDigit = rest := by
  rw [List.takeWhile_append_of_pos h, List.dropWhile_append_of_pos h]
  cases rest with
  | nil => simp
  | cons c rest =>
    have hc := hrest c rfl
    simp [hc]

theorem splitExponent_spell {exponent : Option (Bool × List Char)}
    (h : ∀ e ∈ exponent, e.2 ≠ [] ∧ ∀ c ∈ e.2, c.isDigit) :
    splitExponent (exponentText exponent) = some exponent := by
  obtain _ | ⟨negative, digits⟩ := exponent
  · rfl
  · obtain ⟨hne, hdigits⟩ := h _ rfl
    have hall : digits.all Char.isDigit := List.all_eq_true.2 hdigits
    cases negative <;> simp [splitExponent, splitSign, hne, hall]

theorem head_exponentText (exponent : Option (Bool × List Char)) :
    ∀ c ∈ (exponentText exponent).head?, c = 'e' := by
  cases exponent <;> simp

theorem splitFraction_spell {fraction : Option (List Char)}
    (h : ∀ digits ∈ fraction, digits ≠ [] ∧ ∀ c ∈ digits, c.isDigit)
    (exponent : Option (Bool × List Char)) :
    splitFraction (fractionText fraction ++ exponentText exponent)
      = some (fraction, exponentText exponent) := by
  have hhead := head_exponentText exponent
  obtain _ | digits := fraction
  · change splitFraction (exponentText exponent) = _
    unfold splitFraction
    split
    · next rest heq =>
      rw [heq] at hhead
      exact absurd (hhead '.' rfl) (by decide)
    · rfl
  · obtain ⟨hne, hdigits⟩ := h _ rfl
    obtain ⟨htake, hdrop⟩ := span_digits hdigits fun c hc => (hhead c hc) ▸ rfl
    simp [splitFraction, htake, hdrop, hne]

theorem ofChars?_spell {n : Numeral} (h : n.Formed) : ofChars? n.spell = some n := by
  obtain ⟨negative, whole, fraction, exponent⟩ := n
  have hhead : ∀ c ∈ (fractionText fraction ++ exponentText exponent).head?, c.isDigit = false := by
    cases fraction with
    | none => exact fun c hc => (head_exponentText exponent c hc) ▸ rfl
    | some digits =>
      intro c hc
      obtain rfl : '.' = c := by simpa using hc
      rfl
  obtain ⟨htake, hdrop⟩ := span_digits h.whole hhead
  have hok := h.wholeOk
  have hsplitF := splitFraction_spell h.fraction exponent
  have hsplitE := splitExponent_spell h.exponent
  obtain ⟨first, more, rfl⟩ : ∃ first more, whole = first :: more := by
    cases whole with
    | nil => exact absurd hok (by simp [wholeOk])
    | cons first more => exact ⟨first, more, rfl⟩
  have hfirst : first ≠ '-' := by
    rintro rfl
    exact absurd (h.whole '-' List.mem_cons_self) (by decide)
  simp only [List.cons_append] at htake hdrop
  cases negative <;>
    simp [ofChars?, spell, hfirst, htake, hdrop, hok, hsplitF, hsplitE]

theorem isNumeralChar_of_mem_spell {n : Numeral} (h : n.Formed) {c : Char} (hc : c ∈ n.spell) :
    isNumeralChar c := by
  have hdigit {c : Char} (h : c.isDigit) : isNumeralChar c := by simp [isNumeralChar, h]
  simp only [spell, List.mem_append] at hc
  obtain hc | hc | hc | hc := hc
  · split at hc
    · obtain rfl := List.mem_singleton.1 hc
      rfl
    · simp at hc
  · exact hdigit (h.whole c hc)
  · cases hf : n.fraction with
    | none => simp [hf] at hc
    | some digits =>
      rw [hf, fractionText] at hc
      obtain rfl | hc := List.mem_cons.1 hc
      · rfl
      · exact hdigit ((h.fraction digits hf).2 c hc)
  · cases he : n.exponent with
    | none => simp [he] at hc
    | some e =>
      rw [he, exponentText] at hc
      obtain rfl | hc := List.mem_cons.1 hc
      · rfl
      · obtain rfl | hc := List.mem_cons.1 hc
        · cases e.1 <;> rfl
        · exact hdigit ((h.exponent e he).2 c hc)

theorem head_toDigits {n : Nat} (h : 0 < n) :
    ∃ first more, Nat.toDigits 10 n = first :: more ∧ first ≠ '0' := by
  induction n using Nat.strongRecOn with
  | ind n ih =>
    by_cases hn : n < 10
    · refine ⟨n.digitChar, [], Nat.toDigits_of_lt_base hn, ?_⟩
      interval_cases n <;> decide
    · obtain ⟨first, more, hdigits, hfirst⟩ := ih (n / 10) (by omega) (by omega)
      refine ⟨first, more ++ [(n % 10).digitChar], ?_, hfirst⟩
      rw [Nat.toDigits_of_base_le (by decide) (by omega), hdigits, List.cons_append]

theorem isDigit_of_mem_toDigits {n : Nat} {c : Char} (h : c ∈ Nat.toDigits 10 n) : c.isDigit :=
  Nat.isDigit_of_mem_toDigits (by decide) (by decide) h

theorem isDigit_of_mem_zeros {n : Nat} {c : Char} (h : c ∈ List.replicate n '0') : c.isDigit := by
  rw [List.eq_of_mem_replicate h]
  rfl

theorem wholeOk_toDigits (n : Nat) : wholeOk (Nat.toDigits 10 n) := by
  obtain rfl | h := Nat.eq_zero_or_pos n
  · rfl
  · obtain ⟨first, more, hdigits, hfirst⟩ := head_toDigits h
    rw [hdigits]
    cases more with
    | nil => rfl
    | cons next more => simpa [wholeOk] using hfirst

def ofInt (n : Int) : Numeral :=
  { negative := n < 0, whole := Nat.toDigits 10 n.natAbs, fraction := none, exponent := none }

theorem spell_ofInt (n : Int) : (ofInt n).spell = printInt n := by
  by_cases h : n < 0 <;> simp [spell, ofInt, printInt, h]

theorem formed_ofInt (n : Int) : (ofInt n).Formed where
  whole _ h := isDigit_of_mem_toDigits h
  wholeOk := wholeOk_toDigits _
  fraction := by simp [ofInt]
  exponent := by simp [ofInt]

theorem value_ofInt {n : Int} (hlow : -0x8000000000000000 ≤ n) (hhigh : n < 0x10000000000000000) :
    (ofInt n).value = .int n := by
  simp only [value, ofInt, Nat.ofDigitChars_ten_toDigits, maxSignificand]
  by_cases h : n < 0
  · rw [if_pos (by simpa using h), if_pos (by omega)]
    congr 1
    omega
  · rw [if_neg (by simpa using h), if_pos (by omega)]
    congr 1
    omega

def ofScaled (s : Decimal.Scaled) : Numeral :=
  let digits := Nat.toDigits 10 s.digits
  let lead : Int := s.exponent + digits.length - 1
  if positional lead then
    if 0 ≤ s.exponent then
      { negative := false, whole := digits ++ List.replicate s.exponent.toNat '0'
        fraction := some ['0'], exponent := none }
    else if 0 ≤ lead then
      { negative := false, whole := digits.take (lead.toNat + 1)
        fraction := some (digits.drop (lead.toNat + 1)), exponent := none }
    else
      { negative := false, whole := ['0']
        fraction := some (List.replicate (-lead - 1).toNat '0' ++ digits), exponent := none }
  else
    { negative := false, whole := digits.take 1
      fraction := if (digits.drop 1).isEmpty then none else some (digits.drop 1)
      exponent := some (lead < 0, Nat.toDigits 10 lead.natAbs) }

theorem spell_ofScaled (s : Decimal.Scaled) : (ofScaled s).spell = layout s := by
  obtain ⟨first, more, hdigits⟩ : ∃ first more, Nat.toDigits 10 s.digits = first :: more :=
    List.exists_cons_of_ne_nil Nat.toDigits_ne_nil
  unfold ofScaled layout
  simp only [hdigits]
  generalize (s.exponent + (first :: more).length - 1 : Int) = lead
  by_cases hpositional : positional lead
  · simp only [hpositional, if_true]
    by_cases hexponent : 0 ≤ s.exponent
    · simp [hexponent, spell]
    · by_cases hlead : 0 ≤ lead
      · simp [hexponent, hlead, spell]
      · simp [hexponent, hlead, spell]
  · simp only [hpositional]
    cases more with
    | nil => by_cases hlead : lead < 0 <;> simp [hlead, spell]
    | cons next more =>
      by_cases hlead : lead < 0 <;> simp [hlead, spell]

theorem lead_eq (exponent : Int) (first : Char) (more : List Char) :
    exponent + ((first :: more).length : Int) - 1 = exponent + more.length := by
  simp only [List.length_cons]
  omega

theorem wholeOk_cons {first : Char} (h : first ≠ '0') (more : List Char) :
    wholeOk (first :: more) := by
  cases more with
  | nil => rfl
  | cons next more => simpa [wholeOk] using h

theorem formed_ofScaled {s : Decimal.Scaled} (h : 0 < s.digits) : (ofScaled s).Formed := by
  obtain ⟨first, more, hdigits, hfirst⟩ := head_toDigits h
  have hall : ∀ c ∈ first :: more, c.isDigit := fun c hc =>
    isDigit_of_mem_toDigits (hdigits ▸ hc)
  unfold ofScaled
  simp only [hdigits, lead_eq]
  generalize hlead : (s.exponent + more.length : Int) = lead
  split
  · split
    · exact
        { whole := fun c hc => (List.mem_append.1 hc).elim (hall c) isDigit_of_mem_zeros
          wholeOk := wholeOk_cons hfirst _
          fraction := by simp
          exponent := by simp }
    · split
      · refine
          { whole := fun c hc => hall c (List.mem_of_mem_take hc)
            wholeOk := wholeOk_cons hfirst _
            fraction := fun digits hd => ?_
            exponent := by simp }
        obtain rfl := Option.some.inj hd
        refine ⟨?_, fun c hc => hall c (List.mem_of_mem_drop hc)⟩
        simp
        omega
      · refine
          { whole := by simp
            wholeOk := rfl
            fraction := fun digits hd => ?_
            exponent := by simp }
        obtain rfl := Option.some.inj hd
        exact ⟨by simp, fun c hc => (List.mem_append.1 hc).elim isDigit_of_mem_zeros (hall c)⟩
  · refine
      { whole := fun c hc => hall c (List.mem_of_mem_take hc)
        wholeOk := wholeOk_cons hfirst _
        fraction := fun digits hd => ?_
        exponent := fun e he => ?_ }
    · split at hd
      · exact nomatch hd
      · next hne =>
        obtain rfl := Option.some.inj hd
        exact ⟨by simpa using hne, fun c hc => hall c (List.mem_of_mem_drop hc)⟩
    · obtain rfl := Option.some.inj he
      exact ⟨Nat.toDigits_ne_nil, fun c hc => isDigit_of_mem_toDigits hc⟩

def shift (n : Numeral) : Int :=
  match n.exponent with
  | none => 0
  | some (negative, digits) =>
    let e : Int := Nat.ofDigitChars 10 digits 0
    if negative then -e else e

theorem shift_toDigits (whole : List Char) (fraction : Option (List Char)) (lead : Int) :
    shift { negative := false, whole, fraction
            exponent := some (lead < 0, Nat.toDigits 10 lead.natAbs) } = lead := by
  simp only [shift, Nat.ofDigitChars_ten_toDigits, decide_eq_true_eq]
  split <;> omega

def withFraction (n : Numeral) (whole : Nat) : Nat × Nat :=
  match n.fraction with
  | none => (whole, 0)
  | some digits => ((absorb whole digits).1, digits.length - (absorb whole digits).2.length)

theorem toFloat_eq {n : Numeral} {whole : Nat} (h : absorb 0 n.whole = (whole, [])) :
    n.toFloat = (scale (n.withFraction whole).1 (n.shift - (n.withFraction whole).2)).map
      fun x => if n.negative then -x else x := by
  have hexponent : (([] : List Char).length : Int) - (n.withFraction whole).2 + n.shift
      = n.shift - (n.withFraction whole).2 := by
    simp
    omega
  rw [← hexponent]
  unfold toFloat
  simp only [h]
  unfold withFraction shift
  cases n.fraction with
  | none => cases n.exponent <;> rfl
  | some digits => cases n.exponent <;> rfl

theorem scale_of_neg {significand : Nat} {exponent : Int} (h : exponent < 0) :
    (scale significand exponent).isSome := by
  simp [scale, h]

theorem ofDigitChars_lt (digits : List Char) (h : ∀ c ∈ digits, c.isDigit) (init : Nat) :
    Nat.ofDigitChars 10 digits init < (init + 1) * 10 ^ digits.length := by
  induction digits generalizing init with
  | nil => simp
  | cons c rest ih =>
    obtain ⟨hc, hrest⟩ := List.forall_mem_cons.1 h
    have hdigit : c.toNat - '0'.toNat < 10 := by
      simp only [Char.isDigit, Bool.and_eq_true, decide_eq_true_eq] at hc
      have := UInt32.le_iff_toNat_le.1 hc.2
      simp at this ⊢
      omega
    rw [Nat.ofDigitChars_cons]
    calc
      _ < (10 * init + (c.toNat - '0'.toNat) + 1) * 10 ^ rest.length := ih hrest _
      _ ≤ (10 * (init + 1)) * 10 ^ rest.length := Nat.mul_le_mul_right _ (by omega)
      _ = (init + 1) * 10 ^ (rest.length + 1) := by rw [Nat.pow_succ]; ring

theorem le_ofDigitChars (digits : List Char) (init : Nat) :
    init ≤ Nat.ofDigitChars 10 digits init := by
  induction digits generalizing init with
  | nil => simp
  | cons c rest ih =>
    rw [Nat.ofDigitChars_cons]
    exact Nat.le_trans (by omega) (ih _)

theorem absorb_eq {digits : List Char} {init : Nat}
    (h : Nat.ofDigitChars 10 digits init ≤ maxSignificand) :
    absorb init digits = (Nat.ofDigitChars 10 digits init, []) := by
  induction digits generalizing init with
  | nil => simp [absorb]
  | cons c rest ih =>
    rw [Nat.ofDigitChars_cons] at h ⊢
    rw [absorb, if_pos (Nat.le_trans (le_ofDigitChars rest _) h), ih h]

theorem length_absorb_le (digits : List Char) (init : Nat) :
    (absorb init digits).2.length ≤ digits.length := by
  induction digits generalizing init with
  | nil => simp [absorb]
  | cons c rest ih =>
    unfold absorb
    dsimp only
    split
    · exact Nat.le_succ_of_le (ih _)
    · exact Nat.le_refl _

theorem isSome_toFloat_of_fraction {n : Numeral} {whole : Nat} {c : Char} {rest : List Char}
    (hwhole : absorb 0 n.whole = (whole, [])) (hsmall : whole < 10 ^ 16) (hshift : n.shift = 0)
    (hfraction : n.fraction = some (c :: rest)) (hc : c.isDigit) : n.toFloat.isSome := by
  rw [toFloat_eq hwhole, Option.isSome_map]
  refine scale_of_neg ?_
  have hfits : 10 * whole + (c.toNat - '0'.toNat) ≤ maxSignificand := by
    have := ofDigitChars_lt [c] (by simpa using hc) whole
    simp [Nat.ofDigitChars_cons] at this
    simp only [maxSignificand]
    omega
  have hlength := length_absorb_le rest (10 * whole + (c.toNat - '0'.toNat))
  simp only [withFraction, hfraction, absorb, hfits, if_true, List.length_cons]
  omega

theorem absorb_of_length (digits : List Char) (h : ∀ c ∈ digits, c.isDigit)
    (hlength : digits.length ≤ 16) :
    ∃ whole < 10 ^ 16, absorb 0 digits = (whole, []) := by
  have hlt := ofDigitChars_lt digits h 0
  have hpow : 10 ^ digits.length ≤ 10 ^ 16 := Nat.pow_le_pow_right (by decide) hlength
  refine ⟨_, by omega, absorb_eq ?_⟩
  simp only [maxSignificand]
  omega

theorem isSome_scale {s : Decimal.Scaled} (hpos : 0 < s.digits) (hmost : s.digits ≤ 10 ^ 17)
    (hbrink : s.value < Double.brink) (hne : s ≠ ⟨17976931348623158, 292⟩) :
    (scale s.digits s.exponent).isSome := by
  obtain ⟨c, e⟩ := s
  obtain hneg | ⟨k, rfl⟩ : e < 0 ∨ ∃ k : Nat, e = k := by
    obtain h | h := Int.lt_or_le e 0
    · exact .inl h
    · exact .inr ⟨e.toNat, by omega⟩
  · exact scale_of_neg hneg
  · have hlt : c * 10 ^ k < Double.brink := by
      rw [Decimal.Scaled.value, zpow_natCast] at hbrink
      exact_mod_cast hbrink
    have hother : ¬(c = 17976931348623158 ∧ k = 292) := by
      rintro ⟨rfl, rfl⟩
      exact hne rfl
    obtain ⟨hk, hfinite⟩ := Double.isInf_scaled (c := c) hpos hmost hlt hother
    have hle : (k : Int) ≤ 308 := by omega
    have hnonneg : ¬(k : Int) < 0 := by omega
    simp [scale, hle, hnonneg, hfinite]

theorem toFloat_scientific {first : Char} {more : List Char} {n : Nat}
    (hdigits : Nat.toDigits 10 n = first :: more) (hmost : n ≤ 10 ^ 17) (lead : Int) :
    toFloat
        { negative := false, whole := (first :: more).take 1
          fraction := if ((first :: more).drop 1).isEmpty then none
            else some ((first :: more).drop 1)
          exponent := some (lead < 0, Nat.toDigits 10 lead.natAbs) }
      = scale n (lead - more.length) := by
  have hfirst : first.isDigit := isDigit_of_mem_toDigits (hdigits ▸ List.mem_cons_self)
  have hwhole : absorb 0 ((first :: more).take 1) = (Nat.ofDigitChars 10 [first] 0, []) := by
    refine absorb_eq ?_
    have := ofDigitChars_lt [first] (by simpa using hfirst) 0
    simp only [maxSignificand, List.take_succ_cons, List.take_zero] at this ⊢
    simp at this
    omega
  have hvalue : Nat.ofDigitChars 10 more (Nat.ofDigitChars 10 [first] 0) = n := by
    rw [← Nat.ofDigitChars_append, List.singleton_append, ← hdigits,
      Nat.ofDigitChars_ten_toDigits]
  have hmore : absorb (Nat.ofDigitChars 10 [first] 0) more = (n, []) := by
    rw [← hvalue]
    refine absorb_eq ?_
    rw [hvalue]
    simp only [maxSignificand]
    omega
  rw [toFloat_eq hwhole, shift_toDigits]
  cases more with
  | nil =>
    have hone : Nat.ofDigitChars 10 [first] 0 = n := hvalue
    simp [withFraction, hone]
  | cons next more => simp [withFraction, hmore]

theorem isSome_toFloat_ofScaled {s : Decimal.Scaled} (hpos : 0 < s.digits)
    (hmost : s.digits ≤ 10 ^ 17) (hbrink : s.value < Double.brink)
    (hne : s ≠ ⟨17976931348623158, 292⟩) : (ofScaled s).toFloat.isSome := by
  have hscale := isSome_scale hpos hmost hbrink hne
  obtain ⟨first, more, hdigits, -⟩ := head_toDigits hpos
  have hall : ∀ c ∈ first :: more, c.isDigit := fun c hc =>
    isDigit_of_mem_toDigits (hdigits ▸ hc)
  unfold ofScaled
  simp only [hdigits, lead_eq]
  generalize hlead : (s.exponent + more.length : Int) = lead
  split
  · next hpositional =>
    -- There is a fraction, and what it is worth was scaled down.
    simp only [positional, Bool.and_eq_true, decide_eq_true_eq] at hpositional
    split
    · obtain ⟨whole, hsmall, hwhole⟩ := absorb_of_length
        ((first :: more) ++ List.replicate s.exponent.toNat '0')
        (fun c hc => (List.mem_append.1 hc).elim (hall c) isDigit_of_mem_zeros) (by simp; omega)
      exact isSome_toFloat_of_fraction hwhole hsmall rfl rfl rfl
    · split
      · obtain ⟨whole, hsmall, hwhole⟩ := absorb_of_length
          ((first :: more).take (lead.toNat + 1))
          (fun c hc => hall c (List.mem_of_mem_take hc)) (by simp; omega)
        obtain ⟨c, rest, hrest⟩ := List.exists_cons_of_ne_nil
          (show (first :: more).drop (lead.toNat + 1) ≠ [] by simp; omega)
        refine isSome_toFloat_of_fraction hwhole hsmall rfl (congrArg some hrest) ?_
        exact hall c (List.mem_of_mem_drop (hrest ▸ List.mem_cons_self))
      · obtain ⟨c, rest, hrest⟩ := List.exists_cons_of_ne_nil
          (show List.replicate (-lead - 1).toNat '0' ++ first :: more ≠ [] by simp)
        have hwhole : absorb 0 ['0'] = (0, []) := rfl
        refine isSome_toFloat_of_fraction hwhole (by decide) rfl (congrArg some hrest) ?_
        have hc : c ∈ List.replicate (-lead - 1).toNat '0' ++ first :: more :=
          hrest ▸ List.mem_cons_self
        exact (List.mem_append.1 hc).elim isDigit_of_mem_zeros (hall c)
  · have hexponent : lead - (more.length : Int) = s.exponent := by omega
    rwa [toFloat_scientific hdigits hmost, hexponent]

def ofSize (x : Float) : Numeral :=
  if x == 0.0 then
    { negative := false, whole := ['0'], fraction := some ['0'], exponent := none }
  else ofScaled (Decimal.shortest x.abs)

def ofFloat (x : Float) : Numeral := { ofSize x with negative := 0x8000000000000000 ≤ x.toBits }

theorem spell_ofFloat {x : Float} (h : x.isFinite) : printFloat x = (ofFloat x).spell := by
  have hsign (n : Numeral) (sign : Bool) (hn : n.negative = false) :
      spell { n with negative := sign } = (if sign then ['-'] else []) ++ n.spell := by
    simp [spell, hn]
  have hsize : (ofSize x).negative = false := by
    unfold ofSize ofScaled
    split
    · rfl
    · dsimp only
      split <;> [split <;> [rfl; split <;> rfl]; rfl]
  have hspell : (ofSize x).spell
      = if x == 0.0 then ['0', '.', '0'] else layout (Decimal.shortest x.abs) := by
    unfold ofSize
    split
    · rfl
    · exact spell_ofScaled _
  rw [ofFloat, hsign _ _ hsize, hspell]
  unfold printFloat
  simp only [h]
  split <;> split <;> simp_all

theorem formed_ofFloat {x : Float} (h : x.isFinite) : (ofFloat x).Formed := by
  have hsize : (ofSize x).Formed := by
    unfold ofSize
    split
    · exact { whole := by simp, wholeOk := rfl, fraction := by simp, exponent := by simp }
    · next hne =>
      exact formed_ofScaled (Decimal.shortest_spec
        (Decimal.Binary.isDouble_abs h (by simpa using hne))).1
  exact ⟨hsize.whole, hsize.wholeOk, hsize.fraction, hsize.exponent⟩

theorem value_ofFloat {x : Float} (h : x.isFinite) : ∃ y, (ofFloat x).value = .float y := by
  have hsize : (ofSize x).toFloat.isSome := by
    unfold ofSize
    split
    · have hzero : absorb 0 ['0'] = (0, []) := rfl
      exact isSome_toFloat_of_fraction hzero (by decide) rfl rfl rfl
    · next hne =>
      obtain ⟨hpos, hmost, hbrink, hother⟩ :=
        Decimal.shortest_spec (Decimal.Binary.isDouble_abs h (by simpa using hne))
      exact isSome_toFloat_ofScaled hpos hmost hbrink hother
  have hparts : (ofSize x).fraction.isSome ∨ (ofSize x).exponent.isSome := by
    unfold ofSize ofScaled
    split
    · exact .inl rfl
    · dsimp only
      split
      · exact .inl (by split <;> [rfl; split <;> rfl])
      · exact .inr rfl
  obtain ⟨y, hy⟩ : ∃ y, (ofFloat x).toFloat = some y := by
    refine Option.isSome_iff_exists.1 ?_
    simpa [toFloat, ofFloat] using hsize
  refine ⟨y, ?_⟩
  have hvalue : (ofFloat x).fraction.isSome ∨ (ofFloat x).exponent.isSome := hparts
  unfold value
  simp only [hy]
  split
  · next hf he => simp [hf, he] at hvalue
  · rfl

end TagGateway.Json.Numeral

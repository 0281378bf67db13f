import TagGateway.Json.Parser
import TagGateway.Proofs.Json.Scan

/-!
Reading what was printed. Main statement: every value is read back, up to its numbers, each of which
becomes what its text is worth.
-/

set_option autoImplicit false

namespace TagGateway.Json

theorem rereadItems_eq (items : List Json) : rereadItems items = items.map reread := by
  induction items with
  | nil => rfl
  | cons item rest ih => simp [ih]

theorem rereadMembers_eq (members : List (String × Json)) :
    rereadMembers members = members.map fun (name, value) => (name, value.reread) := by
  induction members with
  | nil => rfl
  | cons member rest ih => simp [ih]

namespace Parser

theorem run_cons {p q : Parser} {token : Token} (h : p.step token = some q) (rest : List Token) :
    p.run (token :: rest) = q.run rest := by
  simp [run, List.foldlM_cons, h]

theorem run_firstItem (j : Json) (stack : List Frame) (rest : List Token) :
    (firstItem stack).run (j.tokens ++ rest)
      = (value (.list [] :: stack)).run (j.tokens ++ rest) := by
  cases j <;> rfl

def keep (members : List (String × Json)) : List (Option String × Json) :=
  members.map fun (key, v) => (some key, v)

theorem record_keep (members : List (String × Json)) :
    record (keep members) = .obj members.reverse := by
  have hnames : ∀ l : List (String × Json),
      ((keep l).mapM fun member => member.1.map (·, member.2)) = some l := by
    intro l
    induction l with
    | nil => rfl
    | cons member rest ih =>
      have htail : keep (member :: rest) = (some member.1, member.2) :: keep rest := rfl
      rw [htail, List.mapM_cons, ih]
      rfl
  have horder : (keep members).reverse = keep members.reverse := List.map_reverse.symm
  unfold record
  rw [horder]
  split
  · next l h => rw [Option.some.inj (h.symm.trans (hnames members.reverse))]
  · next h => cases h.symm.trans (hnames members.reverse)

mutual

/-- The tokens of a value complete it, whatever is open around it. -/
theorem run_tokens : ∀ (j : Json) (stack : List Frame) (rest : List Token),
    (value stack).run (j.tokens ++ rest) = (complete j.reread stack).run rest
  | .null, _, rest | .bool _, _, rest | .int _, _, rest | .float _, _, rest
  | .broken, _, rest | .str _, _, rest => run_cons rfl rest
  | .arr [], _, rest => (run_cons rfl _).trans (run_cons rfl rest)
  | .arr (item :: more), stack, rest => by
    have htokens : (Json.arr (item :: more)).tokens ++ rest
        = .openList :: (tokensOfItems (item :: more) ++ .closeList :: rest) := by
      simp
    have hstart : (firstItem stack).run (tokensOfItems (item :: more) ++ .closeList :: rest)
        = (value (.list [] :: stack)).run (tokensOfItems (item :: more) ++ .closeList :: rest) := by
      cases more with
      | nil => exact run_firstItem ..
      | cons next more =>
        rw [tokensOfItems, List.append_assoc]
        · exact run_firstItem ..
        · simp
    rw [htokens, run_cons rfl, hstart, run_tokensOfItems (item :: more) (by simp), reread]
    rfl
  | .obj [], _, rest => (run_cons rfl _).trans (run_cons rfl rest)
  | .obj (member :: more), stack, rest => by
    have htokens : (Json.obj (member :: more)).tokens ++ rest
        = .openRecord :: (tokensOfMembers (member :: more) ++ .closeRecord :: rest) := by
      simp
    -- A first name is read as any other name is.
    have hstart : (firstName stack).run (tokensOfMembers (member :: more) ++ .closeRecord :: rest)
        = (name (keep []) stack).run
          (tokensOfMembers (member :: more) ++ .closeRecord :: rest) := by
      cases more <;> rfl
    rw [htokens, run_cons rfl, hstart, run_tokensOfMembers (member :: more) (by simp), reread]
    rfl

theorem run_tokensOfItems : ∀ (items : List Json), items ≠ [] →
    ∀ (before : List Json) (stack : List Frame) (rest : List Token),
    (value (.list before :: stack)).run (tokensOfItems items ++ .closeList :: rest)
      = (complete (.arr (before.reverse ++ rereadItems items)) stack).run rest
  | [], hne, _, _, _ => absurd rfl hne
  | [item], _, before, stack, rest => by
    rw [tokensOfItems, run_tokens item, complete, run_cons rfl]
    simp
  | item :: next :: more, _, before, stack, rest => by
    rw [tokensOfItems, List.append_assoc, run_tokens item, List.cons_append, complete,
      run_cons rfl, run_tokensOfItems (next :: more) (by simp)]
    · simp
    · simp

theorem run_tokensOfMembers : ∀ (members : List (String × Json)), members ≠ [] →
    ∀ (before : List (String × Json)) (stack : List Frame) (rest : List Token),
    (name (keep before) stack).run (tokensOfMembers members ++ .closeRecord :: rest)
      = (complete (.obj (before.reverse ++ rereadMembers members)) stack).run rest
  | [], hne, _, _, _ => absurd rfl hne
  | [(key, v)], _, before, stack, rest => by
    have hmember : tokensOfMembers [(key, v)] ++ .closeRecord :: rest
        = .text (some key) :: .colon :: (v.tokens ++ .closeRecord :: rest) := by
      simp
    have hend : step (complete v.reread (.record (keep before) (some key) :: stack)) .closeRecord
        = some (complete (.obj (before.reverse ++ [(key, v.reread)])) stack) := by
      rw [← List.reverse_cons, ← record_keep]
      rfl
    rw [hmember, run_cons rfl, run_cons rfl, run_tokens v, run_cons hend]
    rfl
  | (key, v) :: next :: more, _, before, stack, rest => by
    have hmember : tokensOfMembers ((key, v) :: next :: more) ++ .closeRecord :: rest
        = .text (some key) :: .colon :: (v.tokens ++
            .comma :: (tokensOfMembers (next :: more) ++ .closeRecord :: rest)) := by
      simp
    rw [hmember, run_cons rfl, run_cons rfl, run_tokens v, run_cons rfl]
    have hrest :=
      run_tokensOfMembers (next :: more) (by simp) ((key, v.reread) :: before) stack rest
    exact hrest.trans (by simp)

end

end Parser

theorem parse_print (j : Json) : parse j.print = some j.reread := by
  have h : (Parser.value []).run j.tokens = some (.done j.reread) := by
    rw [← List.append_nil j.tokens]
    exact Parser.run_tokens j [] []
  simp [parse, scan_print, h]

end TagGateway.Json

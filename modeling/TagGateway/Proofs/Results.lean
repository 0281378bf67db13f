import Mathlib.Data.List.Forall2

set_option autoImplicit false

namespace TagGateway

variable {α β γ ε : Type}

@[simp] theorem ok_bind (a : α) (f : α → Except ε β) : (Except.ok a >>= f) = f a := rfl

@[simp] theorem error_bind (e : ε) (f : α → Except ε β) : (Except.error e >>= f) = .error e := rfl

@[simp] theorem ok_map (a : α) (f : α → β) : (Except.ok a : Except ε α).map f = .ok (f a) := rfl

@[simp] theorem error_map (e : ε) (f : α → β) :
    (Except.error e : Except ε α).map f = .error e := rfl

theorem bind_eq_ok {x : Except ε α} {f : α → Except ε β} {b : β} :
    (x >>= f) = .ok b ↔ ∃ a, x = .ok a ∧ f a = .ok b := by
  cases x with
  | error e => simp
  | ok a => simp

theorem forall₂_of_mapM {f : α → Except ε β} {items : List α} {results : List β}
    (h : items.mapM f = .ok results) : List.Forall₂ (fun a b => f a = .ok b) items results := by
  induction items generalizing results with
  | nil =>
    simp only [List.mapM_nil, pure, Except.pure, Except.ok.injEq] at h
    exact h ▸ .nil
  | cons a rest ih =>
    rw [List.mapM_cons] at h
    obtain ⟨b, hb, h⟩ := bind_eq_ok.1 h
    obtain ⟨bs, hbs, h⟩ := bind_eq_ok.1 h
    obtain rfl := Except.ok.inj h
    exact .cons hb (ih hbs)

theorem forall₂_comp {R : α → β → Prop} {S : β → γ → Prop} {T : α → γ → Prop}
    (hcomp : ∀ a b c, R a b → S b c → T a c) :
    ∀ {as : List α} {bs : List β} {cs : List γ}, List.Forall₂ R as bs → List.Forall₂ S bs cs →
      List.Forall₂ T as cs
  | _, _, _, .nil, .nil => .nil
  | _, _, _, .cons hR hRs, .cons hS hSs => .cons (hcomp _ _ _ hR hS) (forall₂_comp hcomp hRs hSs)

/-- What makes the whole fail is the first that fails. -/
theorem split_of_mapM_error {f : α → Except ε β} {items : List α} {e : ε}
    (h : items.mapM f = .error e) :
    ∃ before a after, items = before ++ a :: after ∧ (∀ b ∈ before, ∃ r, f b = .ok r)
      ∧ f a = .error e := by
  induction items with
  | nil => simp [pure, Except.pure] at h
  | cons a rest ih =>
    rw [List.mapM_cons] at h
    cases ha : f a with
    | error e' =>
      simp only [ha, error_bind, Except.error.injEq] at h
      exact ⟨[], a, rest, rfl, by simp, h ▸ ha⟩
    | ok b =>
      cases hr : rest.mapM f with
      | error e' =>
        simp only [ha, hr, ok_bind, error_bind, Except.error.injEq] at h
        obtain ⟨before, c, after, hsplit, hbefore, hc⟩ := ih (h ▸ hr)
        exact ⟨a :: before, c, after, by rw [hsplit, List.cons_append],
          List.forall_mem_cons.2 ⟨⟨b, ha⟩, hbefore⟩, hc⟩
      | ok bs => simp [ha, hr, pure, Except.pure] at h

end TagGateway

import TagGateway.Inventory.Wire
import TagGateway.Proofs.Wire.Lossless

set_option autoImplicit false

namespace TagGateway

open Wire (Definite Passes field passes)

instance : Definite TagState := .ofChoice fun s => by cases s <;> rfl

instance : Definite Event where
  depth := 1
  passes
    | .arrived .. =>
      .mono (.tagged (fun _ _ => rfl) rfl rfl (by simp [Event.members])
        (.required (passes _) <| .required (passes _) <| .required (passes _) <|
          .required (passes _) <| .done _) (by decide)) (by decide)
    | .moved .. | .departed .. =>
      .mono (.tagged (fun _ _ => rfl) rfl rfl (by simp [Event.members])
        (.required (passes _) <| .required (passes _) <| .required (passes _) <|
          .required (passes _) <| .required (passes _) <| .done _) (by decide)) (by decide)
  refuses _ := rfl

variable {R : Type} [Wire R]

theorem PlaceRecord.passes {p : PlaceRecord R} {mean : Option R} (h : Passes 0 p.mean mean) :
    Passes 1 p { p with mean } :=
  .mono (.record (fun _ => rfl) rfl (by simp) fun _ =>
    .required (Wire.passes _) <| .nullable h <| .required (Wire.passes _) <| .done _) (by decide)

theorem TagRecord.passes {r : TagRecord R} {stats : Std.TreeMap String (PlaceRecord R)}
    (h : Passes 2 r.stats stats) : Passes 3 r { r with stats } :=
  .mono (.record (fun _ => rfl) rfl (by simp) fun _ =>
    .required (Wire.passes _) <| .orElse (Wire.passes _) <| .orElse (Wire.passes _) <|
    .required (Wire.passes _) <| .required (Wire.passes _) <| .required (Wire.passes _) <|
    .required (Wire.passes _) <| .orElse h <| .done _) (by decide)

theorem TagRecord.passes_means (r : TagRecord R) (back : Option R → Option R)
    (h : ∀ (place : String) (p : PlaceRecord R), r.stats[place]? = some p →
      Passes 0 p.mean (back p.mean)) :
    ∃ stats, Passes 3 r { r with stats }
      ∧ ∀ place : String,
        stats[place]? = r.stats[place]?.map fun p => { p with mean := back p.mean } := by
  obtain ⟨stats, hstats, hplaces⟩ := Wire.passes_table
    (fun p : PlaceRecord R => { p with mean := back p.mean }) fun pair hpair =>
      PlaceRecord.passes (h pair.1 pair.2 (Std.TreeMap.mem_toList_iff_getElem?_eq_some.1 hpair))
  exact ⟨stats, TagRecord.passes hstats, hplaces⟩

end TagGateway

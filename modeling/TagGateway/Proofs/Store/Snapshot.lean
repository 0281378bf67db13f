import TagGateway.Proofs.Inventory.Reachable
import TagGateway.Proofs.Store.Whole

set_option autoImplicit false

namespace TagGateway

open Wire (Passes)

/-- Whether every number, and none, comes back from a text as a number or none. -/
def Wire.Legible (R : Type) [Wire R] : Prop := ∀ x : Option R, ∃ y, Passes 0 x y

theorem Wire.legible_float : Wire.Legible Float := passes_float

variable {R : Type} [Wire R]

theorem TagRecord.passes_recalling (legible : Wire.Legible R) (r : TagRecord R) :
    ∃ r', Passes 3 r r' ∧ ∀ t : Tag R, r.Recalls t → r'.Recalls t := by
  choose back hback using legible
  obtain ⟨stats, hpasses, hplaces⟩ := r.passes_means back fun _ p _ => hback p.mean
  refine ⟨{ r with stats }, hpasses, fun t h => { h with stats := fun place => ?_ }⟩
  rw [hplaces, Option.map_map, ← h.stats place]
  rfl

/-- Whether the file holds the records of an inventory. Where there is no file there were none. -/
def Disk.Keeps (d : Disk) (name : String) [Level R] (inv : Inventory R) : Prop :=
  d.nodes[name]? = none ∧ inv.tags = ∅
    ∨ d.nodes[name]? = some (.file (Wire.write inv.snapshot).print)

theorem Disk.Keeps.load [Level R] (legible : Wire.Legible R) {d : Disk} {name : String}
    {inv : Inventory R} (kept : d.Keeps name inv) :
    ∃ tell : Tag R → TagRecord R, (∀ t, (tell t).Recalls t)
      ∧ d.load name = .ok (inv.tags.toList.map (tell ·.2)) := by
  choose back hback hrecalls using TagRecord.passes_recalling legible
  refine ⟨back ∘ Tag.snapshot, fun t => hrecalls _ _ t.recalls_snapshot, ?_⟩
  obtain ⟨absent, hempty⟩ | hfile := kept
  · simp only [Disk.load, absent, hempty]
    rfl
  · have hpasses := Wire.passes_list back fun r (_ : r ∈ inv.snapshot) => hback r
    rw [Disk.load_of_file hfile hpasses]
    simp [Inventory.snapshot]

end TagGateway

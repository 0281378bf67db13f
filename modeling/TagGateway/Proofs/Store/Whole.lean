import TagGateway.Proofs.Inventory.Lossless
import TagGateway.Store.Snapshot

set_option autoImplicit false

namespace TagGateway

structure Attempt (R : Type) where
  records : List (TagRecord R)
  fault : Option Fault := none

namespace Disk

section Attempts

variable {R : Type} [Wire R]

def attempt (name : String) (state : Disk × Option (List (TagRecord R))) (a : Attempt R) :
    Disk × Option (List (TagRecord R)) :=
  let (success, d) := state.1.persist name a.records a.fault
  (d, if success then some a.records else state.2)

def persistAll (d : Disk) (name : String) (attempts : List (Attempt R)) :
    Disk × Option (List (TagRecord R)) :=
  attempts.foldl (attempt name) (d, none)

/-- Whether the file holds the records, or what it held at first if there are none. -/
def HoldsSince (start : Disk) (name : String) (state : Disk × Option (List (TagRecord R))) : Prop :=
  state.1.nodes[name]? = match state.2 with
    | none => start.nodes[name]?
    | some records => some (.file (Wire.encode records))

theorem HoldsSince.attempt {start : Disk} {name : String}
    {state : Disk × Option (List (TagRecord R))} (h : start.HoldsSince name state) (a : Attempt R) :
    start.HoldsSince name (attempt name state a) := by
  unfold Disk.attempt persist
  cases hsuccess : (state.1.replace name (Wire.write a.records).print a.fault).1 with
  | false =>
    have hsame := replace_failed hsuccess
    simpa only [HoldsSince, hsuccess, hsame, Bool.false_eq_true, if_false] using h
  | true =>
    obtain ⟨hfile, -⟩ := replace_succeeded hsuccess
    simpa only [HoldsSince, hsuccess, if_true, Wire.encode] using hfile

theorem holdsSince_persistAll (d : Disk) (name : String) (attempts : List (Attempt R)) :
    d.HoldsSince name (d.persistAll name attempts) := by
  suffices h : ∀ state, d.HoldsSince name state →
      d.HoldsSince name (attempts.foldl (attempt name) state) from h _ rfl
  induction attempts with
  | nil => exact fun _ h => h
  | cons a rest ih => exact fun _ h => ih _ (h.attempt a)

theorem load_congr {d d' : Disk} {name : String} (h : d'.nodes[name]? = d.nodes[name]?) :
    d'.load (R := R) name = d.load name := by
  rw [load, load, h]

theorem load_of_file {d : Disk} {name : String} {depth : Nat} {records loaded : List (TagRecord R)}
    (h : d.nodes[name]? = some (.file (Wire.encode records)))
    (hpasses : Wire.Passes depth records loaded) : d.load name = .ok loaded := by
  have hread : (Json.parse (Wire.encode records) >>= Wire.read .text) = some loaded :=
    Wire.decode?_encode_of_passes hpasses
  rw [load, h]
  simp only [hread]

end Attempts

end Disk

/-- Whether the texts of the means read back as the same numbers. -/
def TagRecord.Exact (r : TagRecord Float) : Prop :=
  ∀ (place : String) (p : PlaceRecord Float) (mean : Float), r.stats[place]? = some p →
    p.mean = some mean → Json.parse (Json.float mean).print = some (.float mean)

/-- Whether two records agree in every field, in their statistics as tables. -/
structure TagRecord.Same (r r' : TagRecord Float) : Prop where
  fields : r' = { r with stats := r'.stats }
  stats : ∀ place : String, r'.stats[place]? = r.stats[place]?

theorem Wire.passes_exact {mean : Float}
    (h : Json.parse (Json.float mean).print = some (.float mean)) :
    Passes 0 (some mean) (some mean) := by
  have hreread : (Json.float mean).reread = .float mean := Option.some.inj (Json.parse_print _ ▸ h)
  have hfinite : mean.isFinite := by
    by_contra hinfinite
    simp [hinfinite] at hreread
  refine { sound := ?_, read := fun _ => ?_ }
  · simp [write, hfinite, hreread]
  · simp [write, read, hfinite, hreread]

theorem TagRecord.Exact.passes {r : TagRecord Float} (h : r.Exact) :
    ∃ r', Wire.Passes 3 r r' ∧ r.Same r' := by
  obtain ⟨stats, hpasses, hplaces⟩ := r.passes_means id fun place p hp => by
    cases hmean : p.mean with
    | none => exact { sound := rfl, read := fun _ => rfl }
    | some mean => exact Wire.passes_exact (h place p mean hp hmean)
  exact ⟨_, hpasses, { fields := rfl, stats := fun place => by simp [hplaces] }⟩

theorem TagRecord.passes_exact {records : List (TagRecord Float)} (h : ∀ r ∈ records, r.Exact) :
    ∃ loaded, Wire.Passes 4 records loaded ∧ List.Forall₂ TagRecord.Same records loaded := by
  choose! back hpasses hsame using fun (r : TagRecord Float) (hr : r.Exact) => hr.passes
  refine ⟨records.map back, Wire.passes_list back fun r hr => hpasses r (h r hr), ?_⟩
  rw [List.forall₂_map_right_iff]
  exact List.forall₂_same.2 fun r hr => hsame r (h r hr)

namespace Disk

/-- After any attempts, whichever fail and wherever they fail, what is loaded is what the last one
that succeeded was to keep, or what was loaded before if there is none. An attempt fails only at a
fault, or where directories do not let it write. One that fails changes nothing but its temporary
file, which is another file, and one that succeeds leaves none. -/
theorem load_persistAll (d : Disk) (name : String) (attempts : List (Attempt Float)) :
    ((d.persistAll name attempts).2 = none →
        (d.persistAll name attempts).1.load (R := Float) name = d.load name)
    ∧ (∀ records, (d.persistAll name attempts).2 = some records → (∀ r ∈ records, r.Exact) →
        ∃ loaded, (d.persistAll name attempts).1.load name = .ok loaded
          ∧ List.Forall₂ TagRecord.Same records loaded)
    ∧ temporary name ≠ name
    ∧ ∀ (before : Disk) (records : List (TagRecord Float)) (fault : Option Fault),
        ((before.persist name records fault).1 = true
          ↔ fault = none ∧ before.present ∧ before.nodes[name]? ≠ some .directory
            ∧ before.nodes[temporary name]? ≠ some .directory)
        ∧ ((before.persist name records fault).1 = false → ∀ other : String,
          other ≠ temporary name →
            (before.persist name records fault).2.nodes[other]? = before.nodes[other]?)
        ∧ ((before.persist name records fault).1 = true →
          (before.persist name records fault).2.nodes[temporary name]? = none
          ∧ ∀ other : String, other ≠ name → other ≠ temporary name →
            (before.persist name records fault).2.nodes[other]? = before.nodes[other]?) := by
  have hholds := holdsSince_persistAll d name attempts
  refine ⟨fun hnone => ?_, fun records hsome hexact => ?_, temporary_ne name,
    fun before records fault =>
      ⟨replace_succeeds_iff, fun hfail other hother => ?_, fun hsuccess => ?_⟩⟩
  · rw [HoldsSince, hnone] at hholds
    exact load_congr hholds
  · rw [HoldsSince, hsome] at hholds
    obtain ⟨loaded, hpasses, hsame⟩ := TagRecord.passes_exact hexact
    exact ⟨loaded, load_of_file hholds hpasses, hsame⟩
  · by_cases hname : other = name
    · subst hname
      exact replace_failed hfail
    · exact replace_of_ne hname hother
  · exact ⟨(replace_succeeded hsuccess).2, fun other hname hother => replace_of_ne hname hother⟩

def heardOnce : TagRecord Float :=
  { epc := "01", lastRead := 10, lastArrived := 5, lastDeparted := 0, state := .present
    stats := (Std.TreeMap.empty.insert "R1_1" { lastRead := 10, mean := some (-43.5), count := 1 })
      |>.insert "R1_2" { lastRead := 0, mean := none, count := 0 } }

theorem exact_heardOnce : heardOnce.Exact := by
  intro place p mean hp hmean
  have hvalue : (Json.Numeral.ofFloat (-43.5)).toFloat = some (-43.5) := by decide +kernel
  have hfraction : (Json.Numeral.ofFloat (-43.5)).fraction = some ['5'] := by decide +kernel
  have hfinite : (-43.5 : Float).isFinite := by decide +kernel
  simp only [heardOnce, Std.TreeMap.getElem?_insert] at hp
  split at hp
  · cases hp
    cases hmean
  · split at hp
    · cases hp
      cases hmean
      simp [Json.parse_print, hfinite, Json.Numeral.value, hvalue, hfraction]
    · cases hp

/-- One success among failures of every kind, over a file and the rest of an earlier failure. -/
theorem load_persistAll_once :
    let d : Disk :=
      { nodes := .ofList [("tags.json", Node.file [0x5B]), ("tags.json.tmp", Node.file [0x5D])] }
    let attempts : List (Attempt Float) :=
      [{ records := [], fault := some .rename }, { records := [heardOnce] },
        { records := [heardOnce, heardOnce], fault := some (.write 7) },
        { records := [], fault := some .create }, { records := [], fault := some .sync }]
    (d.persistAll "tags.json" attempts).2 = some [heardOnce]
      ∧ ∃ loaded, (d.persistAll "tags.json" attempts).1.load "tags.json" = .ok loaded
        ∧ List.Forall₂ TagRecord.Same [heardOnce] loaded := by
  intro d attempts
  have hkept : (d.persistAll "tags.json" attempts).2 = some [heardOnce] := rfl
  have hexact : ∀ r ∈ [heardOnce], r.Exact := by simpa using exact_heardOnce
  exact ⟨hkept, (load_persistAll d "tags.json" attempts).2.1 [heardOnce] hkept hexact⟩

end Disk

end TagGateway

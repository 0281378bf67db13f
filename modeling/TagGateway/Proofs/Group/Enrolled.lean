import TagGateway.Gateway.Basic
import TagGateway.Proofs.Device.Compile
import TagGateway.Proofs.Group.Run

set_option autoImplicit false

namespace TagGateway

/-- A reader since it joined last: as which device, and what it has sent. -/
structure Enrolment where
  device : Device
  batches : List (List Reading) := []
  deriving DecidableEq

namespace Enrolment

def send (e : Enrolment) (batch : List Reading) : Enrolment :=
  { e with batches := e.batches ++ [batch] }

def reader (e : Enrolment) (trust : Bool) : GroupReader :=
  e.batches.foldl (fun r batch => (r.process batch).1) (.new e.device trust)

theorem reader_send (e : Enrolment) (trust : Bool) (batch : List Reading) :
    (e.send batch).reader trust = ((e.reader trust).process batch).1 :=
  List.foldl_concat ..

def answer (name : String) (trust : Bool) (held : Option Enrolment) (batch : List Reading) :
    Except ReaderError (List Reading) :=
  match held with
  | none => .error (.unknown name)
  | some e => .ok ((e.reader trust).process batch).2

end Enrolment

theorem Gateway.report_of_unknown {R : Type} [Level R] {w : Gateway R} {name : String}
    {batch : List Reading} (h : w.group.process name batch = .error (.unknown name))
    (origin : Int64) :
    (w.report name origin batch).1.group = w.group
      ∧ (w.report name origin batch).1.inventory = (w.inventory.report name origin batch).1 := by
  unfold Gateway.report
  rw [h]
  simp only
  cases w.inventory.report name origin batch with
  | mk inventory outcome =>
    cases outcome with
    | error e => exact ⟨rfl, rfl⟩
    | ok events =>
      simp only
      split
      · exact ⟨rfl, rfl⟩
      · exact ⟨rfl, rfl⟩

variable {σ τ : Type}

def Service.device? (svc : Service σ) (name : String) (s : σ) : Option Device :=
  match (svc.capabilities name s).1 with
  | .ok caps => (Device.ofCapabilities caps).toOption
  | .error _ => none

namespace Group

def enrol (svc : Service σ) (name : String) (s : σ) (held : Option Enrolment) :
    GroupAction → GroupReply → Option Enrolment
  | .add other, .added (.ok ()) =>
    if other = name then (svc.device? name s).map fun device => { device } else held
  | .remove other, _ => if other = name then none else held
  | .process other batch, _ => if other = name then held.map (·.send batch) else held
  | _, _ => held

def enrolment (svc : Service σ) (name : String) (g : Group) (held : Option Enrolment) :
    List GroupAction → σ → Option Enrolment
  | [], _ => held
  | a :: rest, s =>
    let (reply, next, s') := g.act svc a s
    enrolment svc name next (enrol svc name s held a reply) rest s'

structure Enrolled (g : Group) (trust : Bool) (name : String) (held : Option Enrolment) : Prop where
  trust_eq : g.trust = trust
  reader_eq : g.readers[name]? = held.map (·.reader trust)

variable {g : Group} {trust : Bool} {name : String} {held : Option Enrolment}

theorem enrolled_new (trust : Bool) (name : String) : (new trust).Enrolled trust name none where
  trust_eq := rfl
  reader_eq := by simp

theorem add_error {svc : Service σ} {s : σ} {e : ReaderError}
    (h : (g.add svc name s).1 = .error e) : (g.add svc name s).2.1 = g := by
  unfold Group.add at h ⊢
  cases hc : g.configure svc name s with
  | mk result s' =>
    cases result with
    | error e' => rfl
    | ok r => simp [hc] at h

theorem add_ok {svc : Service σ} {s : σ} (h : (g.add svc name s).1 = .ok ()) :
    ∃ device, svc.device? name s = some device
      ∧ (g.add svc name s).2.1
        = { g with readers := g.readers.insert name (.new device g.trust) } := by
  have hsteps := configured svc g name s
  unfold Group.add at h ⊢
  cases hc : g.configure svc name s with
  | mk result s' =>
    rw [hc] at hsteps
    cases hsteps with
    | unreached asked => simp [hc] at h
    | unsuited asked prepared => simp [hc] at h
    | failed asked prepared told => simp [hc] at h
    | @done _ device _ _ _ asked prepared told =>
      refine ⟨device, ?_, rfl⟩
      simp [Service.device?, asked, (prepare_eq_ok prepared).1, Except.toOption]

theorem Enrolled.add (h : g.Enrolled trust name held) (svc : Service σ) (other : String) (s : σ) :
    (g.add svc other s).2.1.Enrolled trust name
      (enrol svc name s held (.add other) (.added (g.add svc other s).1)) := by
  cases hresult : (g.add svc other s).1 with
  | error e =>
    rw [add_error hresult]
    exact h
  | ok done =>
    obtain ⟨device, hdevice, hnext⟩ := add_ok hresult
    rw [hnext]
    refine { trust_eq := h.trust_eq, reader_eq := ?_ }
    -- The one who joins starts anew, even if it was in the group before.
    by_cases hname : other = name
    · subst hname
      simp [enrol, hdevice, h.trust_eq, Enrolment.reader]
    · simp [enrol, hname, Std.TreeMap.getElem?_insert, h.reader_eq]

theorem Enrolled.remove (h : g.Enrolled trust name held) (svc : Service σ) (other : String) (s : σ)
    (reply : GroupReply) :
    (g.remove other).Enrolled trust name (enrol svc name s held (.remove other) reply) := by
  refine { trust_eq := h.trust_eq, reader_eq := ?_ }
  by_cases hname : other = name
  · simp [enrol, hname]
  · simp [enrol, hname, h.reader_eq]

theorem Enrolled.change (h : g.Enrolled trust name held) (svc : Service σ) (changed : Group)
    (hreaders : changed.readers = g.readers) (htrust : changed.trust = g.trust) (s : σ) :
    (Group.change svc g changed s).2.1.Enrolled trust name held := by
  unfold Group.change
  cases hc : changed.compileAll with
  | error e => exact h
  | ok specs => exact { trust_eq := htrust.trans h.trust_eq, reader_eq := hreaders ▸ h.reader_eq }

theorem Enrolled.process_eq (h : g.Enrolled trust name held) (batch : List Reading) :
    (g.process name batch).map (·.2) = Enrolment.answer name trust held batch := by
  unfold Group.process
  rw [h.reader_eq]
  cases held with
  | none => rfl
  | some e => rfl

theorem Enrolled.process (h : g.Enrolled trust name held) (svc : Service σ) (other : String)
    (batch : List Reading) (s : σ) :
    (g.act svc (.process other batch) s).2.1.Enrolled trust name
      (enrol svc name s held (.process other batch) (g.act svc (.process other batch) s).1) := by
  simp only [Group.act, Group.process, enrol]
  by_cases hname : other = name
  · subst hname
    rw [h.reader_eq, if_pos rfl]
    cases held with
    | none => exact h
    | some e =>
      refine { trust_eq := h.trust_eq, reader_eq := ?_ }
      simp [Enrolment.reader_send]
  · rw [if_neg hname]
    cases hr : g.readers[other]? with
    | none => exact h
    | some r =>
      refine { trust_eq := h.trust_eq, reader_eq := ?_ }
      simp [Std.TreeMap.getElem?_insert, hname, h.reader_eq]

theorem Enrolled.act (h : g.Enrolled trust name held) (svc : Service σ) (a : GroupAction) (s : σ) :
    (g.act svc a s).2.1.Enrolled trust name (enrol svc name s held a (g.act svc a s).1) := by
  cases a with
  | add other => exact h.add svc other s
  | remove other => exact h.remove svc other s _
  | setBehavior behavior => exact h.change svc { g with behavior } rfl rfl s
  | setEnvironment environment => exact h.change svc { g with environment } rfl rfl s
  | startAll =>
    simp only [Group.act, startAll]
    split
    · exact { trust_eq := h.trust_eq, reader_eq := h.reader_eq }
    · exact { trust_eq := h.trust_eq, reader_eq := h.reader_eq }
  | stopAll => exact { trust_eq := h.trust_eq, reader_eq := h.reader_eq }
  | process other batch => exact h.process svc other batch s

theorem Enrolled.run (h : g.Enrolled trust name held) (svc : Service σ)
    (actions : List GroupAction) (s : σ) :
    (g.run svc actions s).1.Enrolled trust name (enrolment svc name g held actions s) := by
  induction actions generalizing g held s with
  | nil => exact h
  | cons a rest ih => exact ih (h.act svc a s) (g.act svc a s).2.2

/-- What comes back for a batch is what its reader alone makes of it, after the batches that it has
sent since it joined. So two runs with the same trust, each against a service of its own, in which a
reader joined as the same device and has sent the same since, give the same for it. An attempt to
join that fails leaves the last values of all readers; and a batch of a reader that is not in the
group is told apart, and goes on as it came. -/
theorem process_of_enrolment (trust : Bool) (name : String) :
    (∀ (svc : Service σ) (actions : List GroupAction) (s : σ) (batch : List Reading),
      (((new trust).run svc actions s).1.process name batch).map (·.2)
        = Enrolment.answer name trust (enrolment svc name (new trust) none actions s) batch)
    ∧ (∀ (svc : Service σ) (svc' : Service τ) (actions actions' : List GroupAction) (s : σ) (s' : τ),
      enrolment svc name (new trust) none actions s
        = enrolment svc' name (new trust) none actions' s' →
      ∀ batch : List Reading,
        (((new trust).run svc actions s).1.process name batch).map (·.2)
          = (((new trust).run svc' actions' s').1.process name batch).map (·.2))
    ∧ (∀ (svc : Service σ) (g : Group) (s : σ) (e : ReaderError),
      (g.add svc name s).1 = .error e → (g.add svc name s).2.1 = g)
    ∧ ∀ (g : Group) (batch : List Reading), name ∉ g.readers →
      g.process name batch = .error (.unknown name)
      ∧ ∀ {R : Type} [Level R] (w : Gateway R) (origin : Int64), w.group = g →
        (w.report name origin batch).1.group = g
        ∧ (w.report name origin batch).1.inventory
          = (w.inventory.report name origin batch).1 := by
  refine ⟨fun svc actions s batch => ?_, fun svc svc' actions actions' s s' hsame batch => ?_,
    fun svc g s e h => add_error h, fun g batch hnone => ?_⟩
  · exact ((enrolled_new trust name).run svc actions s).process_eq batch
  · have hleft := (enrolled_new trust name).run svc actions s
    have hright := (enrolled_new trust name).run svc' actions' s'
    rw [hleft.process_eq, hright.process_eq, hsame]
  · have hunknown : g.process name batch = .error (.unknown name) := by
      unfold Group.process
      rw [Std.TreeMap.getElem?_eq_none hnone]
    exact ⟨hunknown, fun w origin hw => hw ▸ Gateway.report_of_unknown (hw ▸ hunknown) origin⟩

/-- A reader among others, that fails to join anew, and the same reader alone. -/
theorem process_of_enrolment_rejoin :
    let svc : Service Nat :=
      { capabilities := fun _ asked =>
          (if asked < 2 then .ok (Device.plain 0) else .error .timeout, asked + 1)
        perform := fun _ _ asked => (.ok (), asked) }
    let reading (antenna : Option UInt16) : Reading := { fields := { antenna } }
    let actions : List GroupAction :=
      [.add "gate", .process "gate" [reading (some 3)], .add "dock",
        .process "dock" [reading (some 7)], .add "gate"]
    let actions' : List GroupAction := [.add "gate", .process "gate" [reading (some 3)]]
    let first := ((new false).run svc actions 0).1
    let second := ((new false).run svc actions' 0).1
    enrolment svc "gate" (new false) none actions 0
        = enrolment svc "gate" (new false) none actions' 0
      ∧ (first.process "gate" [reading none]).map (·.2) = .ok [reading (some 3)]
      ∧ (second.process "gate" [reading none]).map (·.2) = .ok [reading (some 3)] := by
  intro svc reading actions actions' first second
  have hsame : enrolment svc "gate" (new false) none actions 0
      = enrolment svc "gate" (new false) none actions' 0 := by decide +kernel
  have hfirst : (first.process "gate" [reading none]).map (·.2) = .ok [reading (some 3)] := by
    decide +kernel
  have hboth := (process_of_enrolment false "gate").2.1 svc svc actions actions' 0 0 hsame
    [reading none]
  exact ⟨hsame, hfirst, hboth.symm.trans hfirst⟩

end Group

end TagGateway

import TagGateway.Proofs.Device.Compile
import TagGateway.Proofs.Group.Run
import TagGateway.Proofs.Keys
import TagGateway.Proofs.Results

set_option autoImplicit false

namespace TagGateway

namespace Group

variable {σ : Type}

def Suited (g : Group) : Prop :=
  ∀ (name : String) (r : GroupReader), g.readers[name]? = some r →
    ∃ spec, r.device.compile g.behavior g.environment = .ok spec

def Compiled (g : Group) (p : String × GroupReader) (q : String × RoSpec) : Prop :=
  p.1 = q.1 ∧ p.2.device.compile g.behavior g.environment = .ok q.2

theorem compiled_of_compileAll {g : Group} {specs : List (String × RoSpec)}
    (h : g.compileAll = .ok specs) : List.Forall₂ g.Compiled g.readers.toList specs := by
  refine (forall₂_of_mapM h).imp fun p q hpq => ?_
  obtain ⟨name, r⟩ := p
  cases hc : r.device.compile g.behavior g.environment with
  | error cause => simp [hc] at hpq
  | ok spec =>
    simp only [hc, Except.ok.injEq] at hpq
    exact hpq ▸ ⟨rfl, hc⟩

/-- The operations compiled for a group have one for each reader, under its name. -/
theorem filter_compileAll {g : Group} {specs : List (String × RoSpec)}
    (h : g.compileAll = .ok specs) {name : String} {r : GroupReader}
    (hr : g.readers[name]? = some r) :
    ∃ spec, r.device.compile g.behavior g.environment = .ok spec
      ∧ specs.filter (·.1 = name) = [(name, spec)] := by
  have hnamed : ∀ p q, g.Compiled p q → (decide (p.1 = name) ↔ decide (q.1 = name)) := by
    intro p q hpq
    rw [hpq.1]
  have hrel := List.rel_filter hnamed (compiled_of_compileAll h)
  rw [filter_toList_key, hr] at hrel
  cases hs : specs.filter (·.1 = name) with
  | nil => simp [hs] at hrel
  | cons q rest =>
    simp only [hs, Option.map_some, Option.toList_some, List.forall₂_cons,
      List.forall₂_nil_left_iff] at hrel
    obtain ⟨⟨hname, hspec⟩, rfl⟩ := hrel
    exact ⟨q.2, hspec, by rw [show name = q.1 from hname]⟩

theorem suited_of_compileAll {g : Group} {specs : List (String × RoSpec)}
    (h : g.compileAll = .ok specs) : g.Suited := by
  intro name r hr
  obtain ⟨spec, hspec, -⟩ := filter_compileAll h hr
  exact ⟨spec, hspec⟩

theorem rejected_of_compileAll {g : Group} {e : GroupError} (h : g.compileAll = .error e) :
    ∃ before name r after cause, g.readers.toList = before ++ (name, r) :: after
      ∧ (∀ p ∈ before, ∃ spec, p.2.device.compile g.behavior g.environment = .ok spec)
      ∧ r.device.compile g.behavior g.environment = .error cause ∧ e = .rejected name cause := by
  obtain ⟨before, ⟨name, r⟩, after, hsplit, hbefore, hf⟩ := split_of_mapM_error h
  cases hc : r.device.compile g.behavior g.environment with
  | ok spec => simp [hc] at hf
  | error cause =>
    simp only [hc, Except.error.injEq] at hf
    refine ⟨before, name, r, after, cause, hsplit, fun p hp => ?_, hc, hf.symm⟩
    obtain ⟨result, hresult⟩ := hbefore p hp
    cases hp' : p.2.device.compile g.behavior g.environment with
    | error cause' => simp [hp'] at hresult
    | ok spec => exact ⟨spec, rfl⟩

theorem Suited.compileAll {g : Group} (h : g.Suited) : ∃ specs, g.compileAll = .ok specs := by
  cases hc : g.compileAll with
  | ok specs => exact ⟨specs, rfl⟩
  | error e =>
    obtain ⟨before, name, r, after, cause, hsplit, -, hcause, -⟩ := rejected_of_compileAll hc
    have hr : g.readers[name]? = some r := by
      rw [← Std.TreeMap.mem_toList_iff_getElem?_eq_some, hsplit]
      simp
    obtain ⟨spec, hspec⟩ := h name r hr
    simp [hcause] at hspec

theorem Suited.environment {g : Group} (h : g.Suited) (environment : Environment) :
    Suited { g with environment } := by
  intro name r hr
  obtain ⟨spec, hspec⟩ := h name r hr
  exact Device.compile_ok_congr hspec environment

theorem suited_new (trust : Bool) : (new trust).Suited := by
  intro name r hr
  simp at hr

theorem Configured.suits {svc : Service σ} {g : Group} {name : String} {s s' : σ} {r : GroupReader}
    (h : Configured svc g name s (.ok r) s') :
    ∃ spec, r.device.compile g.behavior g.environment = .ok spec := by
  cases h with
  | done asked prepared told => exact ⟨_, (prepare_eq_ok prepared).2⟩

theorem Suited.insert {g : Group} (h : g.Suited) (name : String) {r : GroupReader}
    (hr : ∃ spec, r.device.compile g.behavior g.environment = .ok spec) :
    Suited { g with readers := g.readers.insert name r } := by
  intro other r' hr'
  simp only [Std.TreeMap.getElem?_insert, Std.compare_eq_iff_eq] at hr'
  split at hr'
  · cases hr'
    exact hr
  · exact h other r' hr'

theorem Suited.add {g : Group} (h : g.Suited) (svc : Service σ) (name : String) (s : σ) :
    (g.add svc name s).2.1.Suited := by
  have hc := configured svc g name s
  unfold Group.add
  cases hr : g.configure svc name s with
  | mk result s' =>
    rw [hr] at hc
    cases result with
    | error e => exact h
    | ok r => exact h.insert name hc.suits

theorem Suited.remove {g : Group} (h : g.Suited) (name : String) : (g.remove name).Suited := by
  intro other r hr
  rw [getElem?_remove] at hr
  split at hr
  · cases hr
  · exact h other r hr

theorem Suited.change {g : Group} (h : g.Suited) (svc : Service σ) (changed : Group) (s : σ) :
    (Group.change svc g changed s).2.1.Suited := by
  unfold Group.change
  cases hc : changed.compileAll with
  | error e => exact h
  | ok specs =>
    -- Adopted before any reader is told, so what the service answers is of no matter.
    exact suited_of_compileAll hc

theorem Suited.process {g : Group} (h : g.Suited) {name : String} {batch : List Reading}
    {g' : Group} {batch' : List Reading} (hp : g.process name batch = .ok (g', batch')) :
    g'.Suited := by
  unfold Group.process at hp
  cases hr : g.readers[name]? with
  | none => simp [hr] at hp
  | some r =>
    simp only [hr, Except.ok.injEq, Prod.mk.injEq] at hp
    obtain ⟨rfl, -⟩ := hp
    exact h.insert name (h name r hr)

theorem Suited.act {g : Group} (h : g.Suited) (svc : Service σ) (a : GroupAction) (s : σ) :
    (g.act svc a s).2.1.Suited := by
  cases a with
  | add name => exact h.add svc name s
  | remove name => exact h.remove name
  | setBehavior behavior => exact h.change svc { g with behavior } s
  | setEnvironment environment => exact h.change svc { g with environment } s
  | startAll =>
    simp only [Group.act, startAll]
    split
    · exact h
    · exact h
  | stopAll => exact h
  | process name batch =>
    simp only [Group.act]
    cases hp : g.process name batch with
    | error e => exact h
    | ok next => exact h.process hp

theorem Suited.run {g : Group} (h : g.Suited) (svc : Service σ) (actions : List GroupAction)
    (s : σ) : (g.run svc actions s).1.Suited := by
  induction actions generalizing g s with
  | nil => exact h
  | cons a rest ih => exact ih (h.act svc a s) (g.act svc a s).2.2

theorem Suited.setEnvironment {g : Group} (h : g.Suited) (svc : Service σ)
    (environment : Environment) (s : σ) :
    (∃ failures, (g.setEnvironment svc environment s).1 = outcome .push failures)
      ∧ (g.setEnvironment svc environment s).2.1 = { g with environment } := by
  obtain ⟨specs, hspecs⟩ := (h.environment environment).compileAll
  unfold Group.setEnvironment Group.change
  rw [hspecs]
  exact ⟨⟨_, rfl⟩, rfl⟩

theorem outcome_push_ne_rejected (failures : List Failure) (name : String)
    (cause : BehaviorError) : outcome GroupError.push failures ≠ .error (.rejected name cause) := by
  unfold outcome
  split <;> simp

/-- After any run, whatever the service answered, every reader in the group can do what the group
does; an environment is never turned down; and whether a behavior compiles, or why not, is the same
in every environment. -/
theorem suited_run (svc : Service σ) (trust : Bool) (actions : List GroupAction) (s : σ) :
    let g := ((new trust).run svc actions s).1
    (∀ (name : String) (r : GroupReader), g.readers[name]? = some r →
        ∃ spec, r.device.compile g.behavior g.environment = .ok spec)
      ∧ (∀ (environment : Environment) (s : σ) (name : String) (cause : BehaviorError),
          (g.setEnvironment svc environment s).1 ≠ .error (.rejected name cause))
      ∧ ∀ (d : Device) (b : Behavior) (e e' : Environment) (cause : BehaviorError),
          d.compile b e = .error cause ↔ d.compile b e' = .error cause := by
  have hg := (suited_new trust).run svc actions s
  refine ⟨hg, fun environment s name cause => ?_, fun d b e e' cause => ?_⟩
  · obtain ⟨⟨failures, hf⟩, -⟩ := hg.setEnvironment svc environment s
    rw [hf]
    exact outcome_push_ne_rejected failures name cause
  · exact ⟨Device.compile_error_congr, Device.compile_error_congr⟩

end Group

end TagGateway

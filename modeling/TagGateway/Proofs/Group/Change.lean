import TagGateway.Proofs.Group.Suited
import TagGateway.Proofs.Group.Trace

set_option autoImplicit false

namespace TagGateway.Group

/-- How a change may come out: the first reader that cannot do it turns it down, or it is taken over
and each reader is told to drop what it had, and to do what was compiled for it. -/
inductive Changed (g changed : Group) :
    Except GroupError Unit → Group → List Exchange → Prop where
  | rejected {before after : List (String × GroupReader)} {name : String} {r : GroupReader}
    {cause : BehaviorError} (first : g.readers.toList = before ++ (name, r) :: after)
    (others : ∀ p ∈ before,
      ∃ spec, p.2.device.compile changed.behavior changed.environment = .ok spec)
    (unable : r.device.compile changed.behavior changed.environment = .error cause) :
    Changed g changed (.error (.rejected name cause)) g []
  | adopted {segments : List (List Exchange)}
    (told : List.Forall₂ (fun p segment => ∃ spec answer,
        p.2.device.compile changed.behavior changed.environment = .ok spec
        ∧ CutOff p.1 ([.deleteAll, .add spec, .enable spec.id]
            ++ if g.running ∧ spec.boundary.start = .null then [.start spec.id] else [])
          segment answer)
      g.readers.toList segments) :
    Changed g changed
      (if failuresOf segments.flatten = [] then .ok ()
        else .error (.push (failuresOf segments.flatten)))
      changed segments.flatten

structure Told (readers : List String) (command : Command) (result : Except (List Failure) Unit)
    (trace : List Exchange) : Prop where
  calls : trace.map (·.toCall) = readers.map fun reader => { reader, request := .perform command }
  result : result = if failuresOf trace = [] then .ok () else .error (failuresOf trace)

theorem outcome_eq {ε : Type} (error : List Failure → ε) (failures : List Failure) :
    outcome error failures = if failures = [] then .ok () else .error (error failures) := by
  simp [outcome]

variable {σ : Type}

theorem changed (svc : Service σ) (g changed : Group) (hreaders : changed.readers = g.readers)
    (hrunning : changed.running = g.running) (s : σ) :
    let (result, g', _, trace) := Group.change svc.traced g changed (s, [])
    Changed g changed result g' trace := by
  unfold Group.change
  cases hc : changed.compileAll with
  | error e =>
    obtain ⟨before, name, r, after, cause, first, others, unable, rfl⟩ := rejected_of_compileAll hc
    exact .rejected (hreaders ▸ first) others unable
  | ok specs =>
    obtain ⟨segments, hsegments, htrace, hfailures⟩ := cutOff_performEach svc
      (specs.map fun q => (q.1, installation q.2 changed.running)) (s, [])
    rw [List.forall₂_map_left_iff] at hsegments
    simp only [outcome_eq, hfailures, htrace, List.nil_append]
    refine .adopted (forall₂_comp ?_ (hreaders ▸ compiled_of_compileAll hc) hsegments)
    rintro p q segment ⟨hname, hspec⟩ ⟨answer, hcut⟩
    rw [hname, ← hrunning]
    exact ⟨q.2, answer, hspec, hcut⟩

theorem told (svc : Service σ) (g : Group) (command : Command) (s : σ) :
    let (result, _, trace) := g.tellAll svc.traced command (s, [])
    Told g.names command result trace := by
  obtain ⟨segments, hsegments, htrace, hfailures⟩ :=
    cutOff_performEach svc (g.names.map fun name => (name, [command])) (s, [])
  rw [List.forall₂_map_left_iff] at hsegments
  simp only [tellAll, outcome_eq, hfailures, htrace, List.nil_append]
  refine { calls := ?_, result := rfl }
  clear htrace hfailures
  generalize g.names = names at hsegments
  induction hsegments with
  | nil => rfl
  | cons hsegment _ ih =>
    obtain ⟨answer, hcut⟩ := hsegment
    simp [hcut.singleton, ih, Exchange.told]

theorem started (svc : Service σ) (g : Group) (s : σ) :
    let (result, g', _, trace) := g.startAll svc.traced (s, [])
    g' = { g with running := true }
      ∧ Told (if g.behavior.gpi = none then g.names else []) (.start managedRoSpec) result
        trace := by
  cases hgpi : g.behavior.gpi with
  | none =>
    have hstart : g.startAll svc.traced (s, [])
        = ((tellAll svc.traced { g with running := true } (.start managedRoSpec) (s, [])).1,
          { g with running := true },
          (tellAll svc.traced { g with running := true } (.start managedRoSpec) (s, [])).2) := by
      simp [startAll, hgpi]
    rw [hstart]
    exact ⟨rfl, told svc { g with running := true } (.start managedRoSpec) s⟩
  | some gpi =>
    have hstart : g.startAll svc.traced (s, []) = (.ok (), { g with running := true }, s, []) := by
      simp [startAll, hgpi]
    rw [hstart]
    exact ⟨rfl, { calls := rfl, result := rfl }⟩

/-- A behavior, or an environment, is compiled for every reader first. If one cannot do it, the
first of those turns it down, nobody is told and the group stays as it was; otherwise it holds, each
reader in the order of the names is told what was compiled for it up to the first failure, whatever
becomes of the others, and the readers that failed are reported. Starting and stopping hold whatever
fails, and each reader is told once, to start only if no input does that. -/
theorem all_compiled_each_told (svc : Service σ) (g : Group) (s : σ) :
    (∀ behavior,
      let (result, g', s', trace) := g.setBehavior svc.traced behavior (s, [])
      g.setBehavior svc behavior s = (result, g', s')
        ∧ Changed g { g with behavior } result g' trace)
    ∧ (∀ environment,
      let (result, g', s', trace) := g.setEnvironment svc.traced environment (s, [])
      g.setEnvironment svc environment s = (result, g', s')
        ∧ Changed g { g with environment } result g' trace)
    ∧ (let (result, g', s', trace) := g.startAll svc.traced (s, [])
      g.startAll svc s = (result, g', s') ∧ g' = { g with running := true }
        ∧ Told (if g.behavior.gpi = none then g.names else []) (.start managedRoSpec) result trace)
    ∧ (let (result, g', s', trace) := g.stopAll svc.traced (s, [])
      g.stopAll svc s = (result, g', s') ∧ g' = { g with running := false }
        ∧ Told g.names (.stop managedRoSpec) result trace)
    ∧ g.names = g.readers.toList.map (·.1) ∧ g.names.Pairwise fun a b => compare a b = .lt := by
  have agrees := traced_agrees svc
  refine ⟨fun behavior => ?_, fun environment => ?_, ?_, ?_,
    Std.TreeMap.map_fst_toList_eq_keys.symm, Std.TreeMap.ordered_keys⟩
  · exact ⟨(agrees.change g { g with behavior } (s, [])).symm,
      changed svc g { g with behavior } rfl rfl s⟩
  · exact ⟨(agrees.change g { g with environment } (s, [])).symm,
      changed svc g { g with environment } rfl rfl s⟩
  · exact ⟨(agrees.startAll g (s, [])).symm, started svc g s⟩
  · exact ⟨(agrees.stopAll g (s, [])).symm, rfl, told svc { g with running := false } _ s⟩

example :
    let svc (broken : String) : Service Unit :=
      { capabilities := fun _ s => (.ok (Device.plain 0), s)
        perform := fun reader c s =>
          (if reader = broken ∧ c = .enable managedRoSpec then .error .timeout else .ok (), s) }
    let (g, _) := (new false).run (svc "") [.add "gate", .add "dock", .startAll] ()
    let (result, _, _, trace) := g.setBehavior (svc "dock").traced {} ((), [])
    result = .error (.push [("dock", .timeout)])
      ∧ trace.map (·.reader) = ["dock", "dock", "dock", "gate", "gate", "gate", "gate"] := by
  decide +kernel

end TagGateway.Group

import TagGateway.Proofs.Group.Account
import TagGateway.Proofs.Group.Suited

set_option autoImplicit false

namespace TagGateway

open Account

variable {σ : Type} {svc : Service σ} {p p' : σ × List LogEntry}

namespace Group

def Holds (g : Group) (accounts : String → Account) : Prop :=
  ∀ (name : String) (r : GroupReader), g.readers[name]? = some r →
    (accounts name).faultless = true →
    ∃ spec, r.device.compile g.behavior g.environment = .ok spec
      ∧ (accounts name).held
        = [{ spec, enabled := true, active := g.running && g.behavior.gpi.isNone }]

theorem foldl_installation_of_compile {g : Group} {d : Device} {spec : RoSpec}
    (h : d.compile g.behavior g.environment = .ok spec) (held : List Installed) :
    (installation spec g.running).foldl Installed.perform held
      = [{ spec, enabled := true, active := g.running && g.behavior.gpi.isNone }] := by
  have hstart : decide (spec.boundary.start = .null) = g.behavior.gpi.isNone := by
    rw [Bool.eq_iff_iff]
    simp [Device.start_of_compile h]
  rw [Installed.foldl_installation, hstart]

theorem Holds.followed {g : Group} {accounts accounts' : String → Account} (h : g.Holds accounts)
    (hf : ∀ name, Followed [] (accounts name) (accounts' name)) : g.Holds accounts' := by
  intro name r hr hfaultless
  obtain ⟨hbefore, hheld⟩ := hf name hfaultless
  rw [hheld]
  exact h name r hr hbefore

theorem Configured.holds {g : Group} {name : String} {r : GroupReader}
    (h : Configured svc.recorded g name p (.ok r) p') (a : Account) :
    (∃ spec, r.device.compile g.behavior g.environment = .ok spec
        ∧ (a.after name p'.2).held
          = [{ spec, enabled := true, active := g.running && g.behavior.gpi.isNone }])
      ∧ ∀ other, name ≠ other → a.after other p'.2 = a.after other p.2 := by
  cases h with
  | @done caps device spec p₁ _ asked prepared told =>
    have hspec := (prepare_eq_ok prepared).2
    refine ⟨⟨spec, hspec, ?_⟩, fun other hne => ?_⟩
    · rw [after_performAll_ok told a]
      exact foldl_installation_of_compile hspec _
    · rw [after_performAll_of_ne told hne a, log_of_capabilities asked]

theorem Configured.followed {g : Group} {name : String} {e : ReaderError}
    (h : Configured svc.recorded g name p (.error e) p') (other : String) (a : Account) :
    Followed [] (a.after other p.2) (a.after other p'.2) := by
  cases h with
  | unreached asked =>
    rw [log_of_capabilities asked]
    exact .refl _
  | unsuited asked prepared =>
    rw [log_of_capabilities asked]
    exact .refl _
  | failed asked prepared told =>
    rw [← log_of_capabilities asked]
    by_cases hname : name = other
    · subst hname
      intro hfaultless
      simp [after_performAll_error told a] at hfaultless
    · rw [after_performAll_of_ne told hname a]
      exact .refl _

variable {g g' : Group} {accounts : String → Account}

theorem Holds.add (h : g.Holds fun n => (accounts n).after n p.2) {name : String}
    {result : Except ReaderError Unit} (hadd : g.add svc.recorded name p = (result, g', p')) :
    g'.Holds fun n => (accounts n).after n (p'.2 ++ joins (.add name) (.added result)) := by
  have hc := configured svc.recorded g name p
  unfold Group.add at hadd
  cases hr : g.configure svc.recorded name p with
  | mk answer q =>
    rw [hr] at hadd hc
    cases answer with
    | error e =>
      simp only [Prod.mk.injEq] at hadd
      obtain ⟨rfl, rfl, rfl⟩ := hadd
      simp only [joins, List.append_nil]
      exact h.followed fun n => hc.followed n (accounts n)
    | ok r =>
      simp only [Prod.mk.injEq] at hadd
      obtain ⟨rfl, rfl, rfl⟩ := hadd
      intro other r' hr' hfaultless
      simp only [joins, after_append] at hfaultless ⊢
      simp only [Std.TreeMap.getElem?_insert, Std.compare_eq_iff_eq] at hr'
      by_cases hname : name = other
      · -- The join wipes out earlier failures, so what is held must not depend on them.
        subst hname
        rw [if_pos rfl] at hr'
        obtain rfl := Option.some.inj hr'
        obtain ⟨⟨spec, hspec, hheld⟩, -⟩ := hc.holds (accounts name)
        exact ⟨spec, hspec, by simpa [after, see] using hheld⟩
      · rw [if_neg hname] at hr'
        have hother := (hc.holds (accounts other)).2 other hname
        have hjoined (a : Account) : a.after other [.joined name] = a := by
          simp [after, see, hname]
        rw [hjoined, hother] at hfaultless ⊢
        exact h other r' hr' hfaultless

theorem Holds.remove (h : g.Holds accounts) (name : String) : (g.remove name).Holds accounts := by
  intro other r hr
  rw [getElem?_remove] at hr
  split at hr
  · cases hr
  · exact h other r hr

theorem Holds.change (h : g.Holds fun n => (accounts n).after n p.2) {changed : Group}
    {result : Except GroupError Unit}
    (hchange : Group.change svc.recorded g changed p = (result, g', p')) :
    g'.Holds fun n => (accounts n).after n p'.2 := by
  unfold Group.change at hchange
  cases hc : changed.compileAll with
  | error e =>
    simp only [hc, Prod.mk.injEq] at hchange
    obtain ⟨-, rfl, rfl⟩ := hchange
    exact h
  | ok specs =>
    simp only [hc, Prod.mk.injEq] at hchange
    obtain ⟨-, rfl, rfl⟩ := hchange
    intro name r hr hfaultless
    obtain ⟨spec, hspec, hfilter⟩ := filter_compileAll hc hr
    have hjobs : ((specs.map fun q => (q.1, installation q.2 changed.running)).filter
        (·.1 = name)).flatMap (·.2) = installation spec changed.running := by
      rw [List.filter_map, Function.comp_def, hfilter]
      simp
    obtain ⟨-, hheld⟩ := followed_performEach _ _ p name (accounts name) hfaultless
    rw [hjobs] at hheld
    exact ⟨spec, hspec, hheld.trans (foldl_installation_of_compile hspec _)⟩

theorem filter_names {name : String} {r : GroupReader} (hr : g.readers[name]? = some r) :
    g.names.filter (· = name) = [name] := by
  rw [names, ← Std.TreeMap.map_fst_toList_eq_keys, List.filter_map, Function.comp_def,
    filter_toList_key, hr]
  rfl

theorem followed_tellAll {name : String} {r : GroupReader} (hr : g.readers[name]? = some r)
    (command : Command) (p : σ × List LogEntry) (a : Account) :
    Followed [command] (a.after name p.2)
      (a.after name (g.tellAll svc.recorded command p).2.2) := by
  have hjobs : ((g.names.map fun n => (n, [command])).filter (·.1 = name)).flatMap (·.2)
      = [command] := by
    rw [List.filter_map, Function.comp_def, filter_names hr]
    rfl
  have hf := followed_performEach svc (g.names.map fun n => (n, [command])) p name a
  rw [hjobs] at hf
  exact hf

theorem Holds.startAll (h : g.Holds fun n => (accounts n).after n p.2) :
    (g.startAll svc.recorded p).2.1.Holds
      fun n => (accounts n).after n (g.startAll svc.recorded p).2.2.2 := by
  unfold Group.startAll
  by_cases hgpi : g.behavior.gpi.isSome
  · -- Nothing is sent, and an operation that waits for an input is not active before or after.
    rw [if_pos hgpi]
    intro name r hr hfaultless
    obtain ⟨spec, hspec, hheld⟩ := h name r hr hfaultless
    refine ⟨spec, hspec, ?_⟩
    simp only [Option.isNone_eq_false_iff.2 hgpi, Bool.and_false] at hheld ⊢
    exact hheld
  · rw [if_neg hgpi]
    intro name r hr hfaultless
    obtain ⟨hbefore, hafter⟩ := followed_tellAll hr _ p (accounts name) hfaultless
    obtain ⟨spec, hspec, hheld⟩ := h name r hr hbefore
    refine ⟨spec, hspec, hafter.trans ?_⟩
    rw [hheld]
    have hnone : g.behavior.gpi = none := by simpa using hgpi
    simp [Installed.perform, Installed.onId, Device.id_of_compile hspec, hnone]

theorem Holds.stopAll (h : g.Holds fun n => (accounts n).after n p.2) :
    (g.stopAll svc.recorded p).2.1.Holds
      fun n => (accounts n).after n (g.stopAll svc.recorded p).2.2.2 := by
  unfold Group.stopAll
  intro name r hr hfaultless
  obtain ⟨hbefore, hafter⟩ := followed_tellAll hr _ p (accounts name) hfaultless
  obtain ⟨spec, hspec, hheld⟩ := h name r hr hbefore
  refine ⟨spec, hspec, hafter.trans ?_⟩
  rw [hheld]
  simp [Installed.perform, Installed.onId, Device.id_of_compile hspec]

theorem Holds.process (h : g.Holds accounts) {name : String} {batch batch' : List Reading}
    (hp : g.process name batch = .ok (g', batch')) : g'.Holds accounts := by
  unfold Group.process at hp
  cases hr : g.readers[name]? with
  | none => simp [hr] at hp
  | some r =>
    simp only [hr, Except.ok.injEq, Prod.mk.injEq] at hp
    obtain ⟨rfl, -⟩ := hp
    intro other r' hr' hfaultless
    simp only [Std.TreeMap.getElem?_insert, Std.compare_eq_iff_eq] at hr'
    by_cases hname : name = other
    · subst hname
      rw [if_pos rfl] at hr'
      obtain rfl := Option.some.inj hr'
      exact h name r hr hfaultless
    · rw [if_neg hname] at hr'
      exact h other r' hr' hfaultless

theorem Holds.act (h : g.Holds accounts) (svc : Service σ) (a : GroupAction) (s : σ) :
    (g.act svc a s).2.1.Holds fun n => (accounts n).after n (g.actLog svc a s) := by
  have hstart : g.Holds fun n => (accounts n).after n (s, ([] : List LogEntry)).2 := h
  rw [← (recorded_agrees svc).act g a (s, [])]
  unfold actLog
  cases a with
  | add name =>
    cases hadd : g.add svc.recorded name (s, []) with
    | mk result next =>
      simp only [Group.act, hadd]
      exact hstart.add hadd
  | remove name => exact h.remove name
  | setBehavior behavior =>
    cases hc : Group.change svc.recorded g { g with behavior } (s, []) with
    | mk result next =>
      simp only [Group.act, Group.setBehavior, hc, joins, List.append_nil]
      exact hstart.change hc
  | setEnvironment environment =>
    cases hc : Group.change svc.recorded g { g with environment } (s, []) with
    | mk result next =>
      simp only [Group.act, Group.setEnvironment, hc, joins, List.append_nil]
      exact hstart.change hc
  | startAll =>
    simp only [Group.act, joins, List.append_nil]
    exact hstart.startAll
  | stopAll =>
    simp only [Group.act, joins, List.append_nil]
    exact hstart.stopAll
  | process name batch =>
    simp only [Group.act]
    cases hp : g.process name batch with
    | error e => exact h
    | ok next => exact h.process hp

theorem Holds.run (h : g.Holds accounts) (svc : Service σ) (actions : List GroupAction) (s : σ) :
    (g.run svc actions s).1.Holds fun n => (accounts n).after n (g.log svc actions s) := by
  induction actions generalizing g s accounts with
  | nil => exact h
  | cons a rest ih =>
    have := ih (h.act svc a s) (g.act svc a s).2.2
    simpa only [Group.run, Group.log, after_append] using this

/-- After any run of a new group, against any service and whatever the readers held before: a reader
in the group, none of whose own commands has failed since it joined, holds exactly the operation
that its device has for the behavior and the environment of the group. It is enabled, and active if
the group runs and no input starts it. -/
theorem held_of_run (svc : Service σ) (trust : Bool) (actions : List GroupAction) (s : σ)
    (before : Account) (name : String) (r : GroupReader)
    (joined : ((new trust).run svc actions s).1.readers[name]? = some r)
    (faultless : (before.after name ((new trust).log svc actions s)).faultless = true) :
    let g := ((new trust).run svc actions s).1
    ∃ spec, r.device.compile g.behavior g.environment = .ok spec
      ∧ (before.after name ((new trust).log svc actions s)).held
        = [{ spec, enabled := true, active := g.running && g.behavior.gpi.isNone }] := by
  have hnew : (new trust).Holds fun _ => before := by
    intro other r' hr'
    simp at hr'
  exact hnew.run svc actions s name r joined faultless

/-- One reader of two does not start; the other holds what it should, started. -/
theorem held_of_run_partial :
    let svc : Service Unit :=
      { capabilities := fun _ s => (.ok (Device.plain 0), s)
        perform := fun reader c s =>
          (if reader = "dock" ∧ c = .start managedRoSpec then .error .timeout else .ok (), s) }
    let actions : List GroupAction :=
      [.add "gate", .add "dock", .startAll, .setBehavior { scan := .deep }, .add "dock"]
    let g := ((new false).run svc actions ()).1
    let account (name : String) : Account :=
      Account.after name { held := [], faultless := true } ((new false).log svc actions ())
    (account "dock").faultless = false
      ∧ ∃ r spec, g.readers["gate"]? = some r ∧ (account "gate").faultless = true
        ∧ r.device.compile g.behavior g.environment = .ok spec
        ∧ (account "gate").held = [{ spec, enabled := true, active := true }] := by
  intro svc actions g account
  obtain ⟨r, hr⟩ : ∃ r, g.readers["gate"]? = some r :=
    Option.isSome_iff_exists.1 (by decide +kernel)
  have faultless : (account "gate").faultless = true := by decide +kernel
  obtain ⟨spec, hspec, hheld⟩ :=
    held_of_run svc false actions () { held := [], faultless := true } "gate" r hr faultless
  have hactive : (g.running && g.behavior.gpi.isNone) = true := by decide +kernel
  rw [hactive] at hheld
  exact ⟨by decide +kernel, r, spec, hr, faultless, hspec, hheld⟩

end Group

end TagGateway

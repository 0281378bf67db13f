import TagGateway.Proofs.Group.Recorded

/-!
What a log tells of one reader. Main statements: commands that are all done have their effects, one
that fails is held against its reader, and of commands for several readers each follows its own.
-/

set_option autoImplicit false

namespace TagGateway

structure Installed where
  spec : RoSpec
  enabled : Bool := false
  active : Bool := false
  deriving DecidableEq, Repr

namespace Installed

def onId (held : List Installed) (id : UInt32) (f : Installed → Installed) : List Installed :=
  held.map fun i => if i.spec.id = id then f i else i

def perform (held : List Installed) : Command → List Installed
  | .setConfig _ => held
  | .add spec => held ++ [{ spec }]
  | .deleteAll => []
  | .enable id => onId held id fun i => { i with enabled := true }
  | .disable id => onId held id fun i => { i with enabled := false }
  | .start id => onId held id fun i => { i with active := true }
  | .stop id => onId held id fun i => { i with active := false }

/-- Whatever a reader held before, it holds the one operation that it was set up for. -/
theorem foldl_installation (held : List Installed) (spec : RoSpec) (running : Bool) :
    (installation spec running).foldl perform held
      = [{ spec, enabled := true, active := running && spec.boundary.start = .null }] := by
  unfold installation
  by_cases hstart : running = true ∧ spec.boundary.start = .null
  · simp [hstart, perform, onId]
  · rw [if_neg hstart]
    have : (running && decide (spec.boundary.start = .null)) = false := by
      simpa using hstart
    simp [this, perform, onId]

end Installed

/-- What a log tells of one reader: what it holds, by the commands done, and whether none has failed
since it joined. -/
structure Account where
  held : List Installed
  faultless : Bool
  deriving DecidableEq, Repr

namespace Account

def see (name : String) (a : Account) : LogEntry → Account
  | .told reader command done =>
    if reader = name then
      if done then { a with held := Installed.perform a.held command }
      else { a with faultless := false }
    else a
  | .joined reader => if reader = name then { a with faultless := true } else a

def after (name : String) (a : Account) (log : List LogEntry) : Account := log.foldl (see name) a

theorem after_append (name : String) (a : Account) (first second : List LogEntry) :
    a.after name (first ++ second) = (a.after name first).after name second :=
  List.foldl_append

def Followed (commands : List Command) (a a' : Account) : Prop :=
  a'.faultless = true →
    a.faultless = true ∧ a'.held = commands.foldl Installed.perform a.held

theorem Followed.refl (a : Account) : Followed [] a a := fun h => ⟨h, rfl⟩

theorem Followed.trans {first second : List Command} {a b c : Account} (hab : Followed first a b)
    (hbc : Followed second b c) : Followed (first ++ second) a c := by
  intro hc
  obtain ⟨hb, hheld⟩ := hbc hc
  obtain ⟨ha, hheld'⟩ := hab hb
  exact ⟨ha, by rw [hheld, hheld', List.foldl_append]⟩

end Account

open Account

variable {σ : Type} {svc : Service σ} {p p' : σ × List LogEntry}

theorem after_performAll_of_ne {reader : String} {commands : List Command}
    {answer : Except ServiceError Unit}
    (h : svc.recorded.performAll reader commands p = (answer, p')) {name : String}
    (hne : reader ≠ name) (a : Account) : a.after name p'.2 = a.after name p.2 := by
  induction commands generalizing p with
  | nil =>
    obtain ⟨-, rfl⟩ := Prod.mk.inj h
    rfl
  | cons c rest ih =>
    cases hc : svc.perform reader c p.1 with
    | mk answer' s =>
      simp only [Service.performAll, perform_recorded hc] at h
      have hseen : a.after name (p.2 ++ [.told reader c answer'.isOk]) = a.after name p.2 := by
        rw [after_append]
        simp [after, see, hne]
      cases answer' with
      | error e =>
        obtain ⟨-, rfl⟩ := Prod.mk.inj h
        exact hseen
      | ok done => exact (ih h).trans hseen

theorem after_performAll_ok {name : String} {commands : List Command}
    (h : svc.recorded.performAll name commands p = (.ok (), p')) (a : Account) :
    a.after name p'.2
      = { a.after name p.2 with
          held := commands.foldl Installed.perform (a.after name p.2).held } := by
  induction commands generalizing p with
  | nil =>
    obtain ⟨-, rfl⟩ := Prod.mk.inj h
    rfl
  | cons c rest ih =>
    cases hc : svc.perform name c p.1 with
    | mk answer s =>
      simp only [Service.performAll, perform_recorded hc] at h
      cases answer with
      | error e => cases h
      | ok done =>
        rw [ih h, after_append]
        simp [after, see, Except.isOk, Except.toBool]

theorem after_performAll_error {name : String} {commands : List Command} {e : ServiceError}
    (h : svc.recorded.performAll name commands p = (.error e, p')) (a : Account) :
    (a.after name p'.2).faultless = false := by
  induction commands generalizing p with
  | nil => cases h
  | cons c rest ih =>
    cases hc : svc.perform name c p.1 with
    | mk answer s =>
      simp only [Service.performAll, perform_recorded hc] at h
      cases answer with
      | error e' =>
        -- This one ends the log: what comes after it is not sent.
        obtain ⟨-, rfl⟩ := Prod.mk.inj h
        rw [after_append]
        simp [after, see, Except.isOk, Except.toBool]
      | ok done => exact ih h

theorem followed_performAll {reader : String} {commands : List Command}
    {answer : Except ServiceError Unit}
    (h : svc.recorded.performAll reader commands p = (answer, p')) (name : String) (a : Account) :
    Followed (if reader = name then commands else []) (a.after name p.2) (a.after name p'.2) := by
  by_cases hname : reader = name
  · subst hname
    rw [if_pos rfl]
    intro hfaultless
    cases answer with
    | error e => simp [after_performAll_error h a] at hfaultless
    | ok done =>
      rw [after_performAll_ok h a] at hfaultless ⊢
      exact ⟨hfaultless, rfl⟩
  · rw [if_neg hname, after_performAll_of_ne h hname a]
    exact .refl _

theorem followed_performEach (svc : Service σ) (jobs : List (String × List Command))
    (p : σ × List LogEntry) (name : String) (a : Account) :
    Followed ((jobs.filter (·.1 = name)).flatMap (·.2)) (a.after name p.2)
      (a.after name (svc.recorded.performEach jobs p).2.2) := by
  induction jobs generalizing p with
  | nil => exact .refl _
  | cons job rest ih =>
    obtain ⟨reader, commands⟩ := job
    have hjobs : (((reader, commands) :: rest).filter (·.1 = name)).flatMap (·.2)
        = (if reader = name then commands else [])
          ++ (rest.filter (·.1 = name)).flatMap (·.2) := by
      by_cases hname : reader = name
      · simp [hname]
      · simp [hname]
    rw [hjobs]
    cases hr : svc.recorded.performAll reader commands p with
    | mk answer p' =>
      have hfirst := followed_performAll hr name a
      simp only [Service.performEach, hr]
      cases answer with
      | ok done => exact hfirst.trans (ih p')
      | error e => exact hfirst.trans (ih p')

end TagGateway

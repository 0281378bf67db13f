import TagGateway.Proofs.Group.Run

/-!
Services that differ only in what they keep beside. Main statement: what a group gets from them, and
what becomes of it, is the same.
-/

set_option autoImplicit false

namespace TagGateway

variable {σ τ : Type}

/-- Whether a service answers as another one does, whose state is a part of its own. -/
structure Service.Agrees (rich : Service τ) (svc : Service σ) (view : τ → σ) : Prop where
  capabilities : ∀ reader t,
    Prod.map id view (rich.capabilities reader t) = svc.capabilities reader (view t)
  perform : ∀ reader command t,
    Prod.map id view (rich.perform reader command t) = svc.perform reader command (view t)

namespace Service.Agrees

variable {rich : Service τ} {svc : Service σ} {view : τ → σ} (h : rich.Agrees svc view)

include h

theorem performAll (reader : String) (commands : List Command) (t : τ) :
    Prod.map id view (rich.performAll reader commands t)
      = svc.performAll reader commands (view t) := by
  induction commands generalizing t with
  | nil => rfl
  | cons c rest ih =>
    simp only [Service.performAll, ← h.perform]
    cases rich.perform reader c t with
    | mk answer t' =>
      cases answer with
      | error e => rfl
      | ok done => exact ih t'

theorem performEach (jobs : List (String × List Command)) (t : τ) :
    Prod.map id view (rich.performEach jobs t) = svc.performEach jobs (view t) := by
  induction jobs generalizing t with
  | nil => rfl
  | cons job rest ih =>
    simp only [Service.performEach, ← h.performAll]
    cases rich.performAll job.1 job.2 t with
    | mk answer t' =>
      cases answer with
      | ok done => exact ih t'
      | error e =>
        simp only [Prod.map, id, ← ih]

theorem configure (g : Group) (name : String) (t : τ) :
    Prod.map id view (g.configure rich name t) = g.configure svc name (view t) := by
  simp only [Group.configure, ← h.capabilities]
  cases rich.capabilities name t with
  | mk answer t' =>
    cases answer with
    | error e => rfl
    | ok caps =>
      cases hp : g.prepare caps with
      | error cause => simp [hp]
      | ok prepared =>
        simp only [Prod.map, id, hp, ← h.performAll]
        cases rich.performAll name _ t' with
        | mk answer t'' =>
          cases answer with
          | error e => rfl
          | ok done => rfl

theorem add (g : Group) (name : String) (t : τ) :
    Prod.map id (Prod.map id view) (g.add rich name t) = g.add svc name (view t) := by
  simp only [Group.add, ← h.configure]
  cases g.configure rich name t with
  | mk answer t' =>
    cases answer with
    | error e => rfl
    | ok r => rfl

theorem change (g changed : Group) (t : τ) :
    Prod.map id (Prod.map id view) (Group.change rich g changed t)
      = Group.change svc g changed (view t) := by
  unfold Group.change
  cases changed.compileAll with
  | error e => rfl
  | ok specs =>
    simp only [← h.performEach]
    rfl

theorem tellAll (g : Group) (command : Command) (t : τ) :
    Prod.map id view (g.tellAll rich command t) = g.tellAll svc command (view t) := by
  simp only [Group.tellAll, ← h.performEach]
  rfl

theorem startAll (g : Group) (t : τ) :
    Prod.map id (Prod.map id view) (g.startAll rich t) = g.startAll svc (view t) := by
  simp only [Group.startAll, ← h.tellAll]
  split
  · rfl
  · rfl

theorem stopAll (g : Group) (t : τ) :
    Prod.map id (Prod.map id view) (g.stopAll rich t) = g.stopAll svc (view t) := by
  simp only [Group.stopAll, ← h.tellAll]
  rfl

theorem act (g : Group) (a : GroupAction) (t : τ) :
    Prod.map id (Prod.map id view) (g.act rich a t) = g.act svc a (view t) := by
  cases a with
  | add name =>
    simp only [Group.act, ← h.add]
    rfl
  | remove name => rfl
  | setBehavior behavior =>
    simp only [Group.act, Group.setBehavior, ← h.change]
    rfl
  | setEnvironment environment =>
    simp only [Group.act, Group.setEnvironment, ← h.change]
    rfl
  | startAll =>
    simp only [Group.act, ← h.startAll]
    rfl
  | stopAll =>
    simp only [Group.act, ← h.stopAll]
    rfl
  | process name batch =>
    simp only [Group.act]
    cases g.process name batch with
    | ok next => rfl
    | error e => rfl

end Service.Agrees

end TagGateway

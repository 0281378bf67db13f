import TagGateway.Proofs.Group.Agreement

set_option autoImplicit false

namespace TagGateway

structure Exchange extends Call where
  error : Option ServiceError
  deriving DecidableEq, Repr

namespace Exchange

def asked (reader : String) (error : Option ServiceError) : Exchange :=
  { reader, request := .capabilities, error }

def told (reader : String) (command : Command) (error : Option ServiceError) : Exchange :=
  { reader, request := .perform command, error }

end Exchange

def failure? {α ε : Type} : Except ε α → Option ε
  | .ok _ => none
  | .error e => some e

variable {σ : Type}

def Service.traced (svc : Service σ) : Service (σ × List Exchange) where
  capabilities reader p :=
    let (answer, s) := svc.capabilities reader p.1
    (answer, s, p.2 ++ [.asked reader (failure? answer)])
  perform reader command p :=
    let (answer, s) := svc.perform reader command p.1
    (answer, s, p.2 ++ [.told reader command (failure? answer)])

theorem traced_agrees (svc : Service σ) : svc.traced.Agrees svc Prod.fst where
  capabilities _ _ := rfl
  perform _ _ _ := rfl

def failuresOf (trace : List Exchange) : List Failure :=
  trace.filterMap fun x => x.error.map (x.reader, ·)

theorem failuresOf_append (first second : List Exchange) :
    failuresOf (first ++ second) = failuresOf first ++ failuresOf second :=
  List.filterMap_append

/-- How commands for a reader come out: all are done, or those up to the first that fails. -/
inductive CutOff (reader : String) (commands : List Command) :
    List Exchange → Except ServiceError Unit → Prop where
  | done : CutOff reader commands (commands.map (.told reader · none)) (.ok ())
  | failed {before after : List Command} {c : Command} {e : ServiceError}
    (split : commands = before ++ c :: after) :
    CutOff reader commands (before.map (.told reader · none) ++ [.told reader c (some e)])
      (.error e)

namespace CutOff

variable {reader : String} {commands : List Command} {c : Command} {segment : List Exchange}
  {answer : Except ServiceError Unit}

theorem cons (h : CutOff reader commands segment answer) :
    CutOff reader (c :: commands) (.told reader c none :: segment) answer := by
  cases h with
  | done => exact .done
  | @failed before after c' e split =>
    have hsplit : c :: commands = (c :: before) ++ c' :: after := by rw [split, List.cons_append]
    exact .failed hsplit

theorem failuresOf_eq (h : CutOff reader commands segment answer) :
    failuresOf segment = (failure? answer).toList.map (reader, ·) := by
  have hdone (commands : List Command) :
      failuresOf (commands.map (Exchange.told reader · none)) = [] := by
    simp [failuresOf, Exchange.told, List.filterMap_map]
  cases h with
  | done => exact hdone commands
  | failed split =>
    rw [failuresOf_append, hdone]
    rfl

theorem singleton (h : CutOff reader [c] segment answer) :
    segment = [.told reader c (failure? answer)] := by
  cases h with
  | done => rfl
  | @failed before after c' e split =>
    cases before with
    | nil =>
      obtain ⟨rfl, -⟩ := List.cons.inj split
      rfl
    | cons b rest => simp at split

end CutOff

theorem cutOff_performAll (svc : Service σ) (reader : String) (commands : List Command)
    (p : σ × List Exchange) :
    ∃ segment, (svc.traced.performAll reader commands p).2.2 = p.2 ++ segment
      ∧ CutOff reader commands segment (svc.traced.performAll reader commands p).1 := by
  induction commands generalizing p with
  | nil => exact ⟨[], by simp [Service.performAll], .done⟩
  | cons c rest ih =>
    cases hc : svc.perform reader c p.1 with
    | mk answer s =>
      have hp : svc.traced.perform reader c p
          = (answer, s, p.2 ++ [.told reader c (failure? answer)]) := by
        simp [Service.traced, hc]
      simp only [Service.performAll, hp]
      cases answer with
      | error e => exact ⟨[.told reader c (some e)], rfl, .failed (List.nil_append _).symm⟩
      | ok done =>
        obtain ⟨segment, htrace, hcut⟩ := ih (s, p.2 ++ [.told reader c none])
        exact ⟨.told reader c none :: segment, by simp [failure?, htrace], hcut.cons⟩

/-- Each reader is told its own commands, and the failures are those of the calls. -/
theorem cutOff_performEach (svc : Service σ) (jobs : List (String × List Command))
    (p : σ × List Exchange) :
    ∃ segments,
      List.Forall₂ (fun job segment => ∃ answer, CutOff job.1 job.2 segment answer) jobs segments
      ∧ (svc.traced.performEach jobs p).2.2 = p.2 ++ segments.flatten
      ∧ (svc.traced.performEach jobs p).1 = failuresOf segments.flatten := by
  induction jobs generalizing p with
  | nil => exact ⟨[], .nil, by simp [Service.performEach], rfl⟩
  | cons job rest ih =>
    obtain ⟨reader, commands⟩ := job
    obtain ⟨segment, htrace, hcut⟩ := cutOff_performAll svc reader commands p
    simp only [Service.performEach]
    cases hall : svc.traced.performAll reader commands p with
    | mk answer p' =>
      simp only [hall] at htrace hcut
      obtain ⟨segments, hrest, htraces, hfailures⟩ := ih p'
      refine ⟨segment :: segments, .cons ⟨answer, hcut⟩ hrest, ?_, ?_⟩
      · cases answer <;> simp [htraces, htrace]
      · rw [List.flatten_cons, failuresOf_append, hcut.failuresOf_eq, ← hfailures]
        cases answer with
        | error e => rfl
        | ok done => rfl

end TagGateway

import Mathlib.Data.List.Perm.Subperm
import TagGateway.Gateway.Dispatch
import TagGateway.Link.Message

set_option autoImplicit false

namespace TagGateway

/-- A list that has, under every key, some of what another has there, holds no more than that. -/
theorem subperm_of_filter {α β : Type} [DecidableEq β] {f : α → β} {l l' : List α}
    (h : ∀ b, (l.filter (f · = b)).Sublist (l'.filter (f · = b))) : l.Subperm l' := by
  classical
  refine List.subperm_iff_count.2 fun a => ?_
  have hpart (k : List α) : (k.filter (f · = f a)).count a = k.count a :=
    List.count_filter (by simp)
  rw [← hpart l, ← hpart l']
  exact (h (f a)).count_le a

theorem Inbound.device?_eq_some_iff {R : Type} {m : Inbound R} {device : String} :
    m.device? = some device ↔
      (∃ origin entries, m = .report device origin entries)
        ∨ (∃ capabilities, m = .readerConnected device capabilities)
        ∨ m = .readerClosed device := by
  cases m <;> simp [device?]

namespace Dispatch

variable {μ : Type}

def start (messages : List μ) (inboundCapacity workers queueCapacity : Nat) : Dispatch μ :=
  { messages, inboundCapacity, queues := List.replicate workers [], queueCapacity }

/-- Who handles the messages of a reader, or those that concern no single one. -/
def handlerOf (assign : String → Nat) (workers : Nat) (device : Option String) : Handler :=
  match if workers = 0 then none else device with
  | none => .dispatcher
  | some device => .worker (workerOf assign workers device)

def handledBy (d : Dispatch μ) (h : Handler) : List μ := (d.handled.filter (·.1 = h)).map (·.2)

@[simp] def waitingFor (d : Dispatch μ) : Handler → List μ
  | .dispatcher => []
  | .worker index => d.queues.getD index []

def Done (d : Dispatch μ) : Prop := d.phase = .returned ∧ ∀ queue ∈ d.queues, queue = []

variable {device? : μ → Option String} {assign : String → Nat} {messages taken : List μ}
  {workers count : Nat} {d d' : Dispatch μ}

theorem handledBy_append {m : μ} {who : Handler} (hd : d'.handled = d.handled ++ [(who, m)])
    (h : Handler) : d'.handledBy h = d.handledBy h ++ if who = h then [m] else [] := by
  unfold handledBy
  by_cases hby : who = h
  · simp [hd, hby]
  · simp [hd, hby]

/-- What each move does, and when it is possible, while the workers are there. -/
inductive Moves (device? : μ → Option String) (assign : String → Nat) (d : Dispatch μ) :
    Move → Dispatch μ → Prop where
  | arrive {m : μ} (enters : d.messages[d.entered]? = some m) :
    Moves device? assign d .arrive { d with inbound := d.inbound ++ [m], entered := d.entered + 1 }
  | hangUp (asked : d.shutdown = true) :
    Moves device? assign d .hangUp { d with messages := d.messages.take d.entered }
  | raise : Moves device? assign d .raise { d with shutdown := true }
  | notice (running : d.phase = .running) (asked : d.shutdown = true) :
    Moves device? assign d .notice { d with phase := .draining }
  | handle {m : μ} {rest : List μ} (busy : d.phase ≠ .returned) (first : d.inbound = m :: rest)
    (own : handlerOf assign d.queues.length (device? m) = .dispatcher) :
    Moves device? assign d .next
      { d with inbound := rest, handled := d.handled ++ [(.dispatcher, m)] }
  | forward {m : μ} {rest : List μ} {index : Nat} (busy : d.phase ≠ .returned)
    (first : d.inbound = m :: rest) (hlt : index < d.queues.length)
    (theirs : handlerOf assign d.queues.length (device? m) = .worker index) :
    Moves device? assign d .next
      { d with inbound := rest, queues := d.queues.modify index (· ++ [m]) }
  | finish (empty : d.inbound = [])
    (ended : d.phase = .draining ∨ d.phase = .running ∧ d.messages.length ≤ d.entered) :
    Moves device? assign d .finish d.returnNow
  | work {index : Nat} {m : μ} {rest : List μ} (first : d.queues[index]? = some (m :: rest)) :
    Moves device? assign d (.work index)
      { d with
        queues := d.queues.set index rest
        handled := d.handled ++ [(.worker index, m)] }

theorem moves_of_route (present : d.workersGone = false) {m : μ} {rest : List μ}
    (busy : d.phase ≠ .returned) (first : d.inbound = m :: rest)
    (h : route device? assign { d with inbound := rest } m = some d') :
    Moves device? assign d .next d' := by
  have hempty : d.queues.isEmpty = decide (d.queues.length = 0) := by
    cases d.queues with
    | nil => rfl
    | cons queue others => rfl
  simp only [route, hempty, decide_eq_true_eq] at h
  split at h
  · next hnone =>
    cases h
    exact .handle busy first (by simp only [handlerOf, hnone])
  · next device hsome =>
    have hworkers : d.queues.length ≠ 0 := by
      intro hzero
      simp [hzero] at hsome
    simp only [present, Bool.false_eq_true, if_false] at h
    split at h
    · obtain rfl := Option.some.inj h
      rw [← present]
      exact .forward busy first (Nat.mod_lt _ (Nat.pos_of_ne_zero hworkers))
        (by simp only [handlerOf, hsome])
    · cases h

theorem moves_of_step (present : d.workersGone = false) {move : Move}
    (h : d.step device? assign move = some d') : Moves device? assign d move d' := by
  cases move with
  | arrive =>
    simp only [step] at h
    split at h
    · obtain ⟨m, hm, rfl⟩ := Option.map_eq_some_iff.1 h
      exact .arrive hm
    · cases h
  | hangUp =>
    simp only [step] at h
    split at h
    · next asked =>
      cases h
      exact .hangUp asked
    · cases h
  | raise =>
    cases h
    exact .raise
  | notice =>
    simp only [step] at h
    split at h
    · next ready =>
      cases h
      exact .notice ready.1 ready.2
    · cases h
  | next =>
    simp only [step] at h
    split at h
    · cases h
    · next busy =>
      split at h
      · cases h
      · next m rest first => exact moves_of_route present busy first h
  | finish =>
    simp only [step] at h
    split at h
    · next ready =>
      cases h
      exact .finish (List.isEmpty_iff.1 ready.1) ready.2
    · cases h
  | work index =>
    simp only [step] at h
    split at h
    · next m rest first =>
      cases h
      exact .work first
    · cases h

/-- The messages that entered, in their order, are those that were taken and those that were not;
of those that were taken each handler has handled the first ones that are meant for it, and the
others wait for it. Of the messages there is a count that had entered while the dispatcher was still
busy: these have been taken when it returns. -/
structure Keeps (device? : μ → Option String) (assign : String → Nat) (messages : List μ)
    (workers count : Nat) (taken : List μ) (d : Dispatch μ) : Prop where
  workers_eq : d.queues.length = workers
  present : d.workersGone = false
  messages_prefix : d.messages <+: messages
  entered_le : d.entered ≤ d.messages.length
  entered_eq : taken ++ d.inbound = messages.take d.entered
  lanes : ∀ h, d.handledBy h ++ d.waitingFor h
    = taken.filter fun m => handlerOf assign workers (device? m) = h
  count_le : count ≤ d.entered
  returned : d.phase = .returned → count ≤ taken.length

theorem keeps_start (device? : μ → Option String) (assign : String → Nat) (messages : List μ)
    (inboundCapacity workers queueCapacity : Nat) :
    Keeps device? assign messages workers 0 []
      (start messages inboundCapacity workers queueCapacity) where
  workers_eq := List.length_replicate
  present := rfl
  messages_prefix := List.prefix_rfl
  entered_le := Nat.zero_le _
  entered_eq := rfl
  lanes h := by
    cases h with
    | dispatcher => rfl
    | worker index =>
      simp only [start, handledBy, waitingFor, List.getD_eq_getElem?_getD, List.getElem?_replicate]
      split
      · rfl
      · rfl
  count_le := Nat.zero_le _
  returned _ := Nat.zero_le _

namespace Keeps

theorem mark (h : Keeps device? assign messages workers count taken d)
    (hphase : d.phase ≠ .returned) :
    Keeps device? assign messages workers d.entered taken d :=
  { h with count_le := Nat.le_refl _, returned := fun hr => absurd hr hphase }

theorem taken_prefix (h : Keeps device? assign messages workers count taken d) :
    taken <+: messages.take d.entered := ⟨d.inbound, h.entered_eq⟩

theorem arrive (h : Keeps device? assign messages workers count taken d) {m : μ}
    (enters : d.messages[d.entered]? = some m) :
    Keeps device? assign messages workers count taken
      { d with inbound := d.inbound ++ [m], entered := d.entered + 1 } := by
  obtain ⟨hlt, rfl⟩ := List.getElem?_eq_some_iff.1 enters
  refine { h with entered_le := hlt, entered_eq := ?_, count_le := Nat.le_succ_of_le h.count_le }
  rw [List.take_add_one, List.prefix_iff_getElem?.1 h.messages_prefix _ hlt, ← h.entered_eq,
    List.append_assoc]
  rfl

theorem hangUp (h : Keeps device? assign messages workers count taken d) :
    Keeps device? assign messages workers count taken
      { d with messages := d.messages.take d.entered } :=
  { h with
    messages_prefix := (List.take_prefix _ _).trans h.messages_prefix
    entered_le := by simp [h.entered_le] }

theorem entered_eq_of_take (h : Keeps device? assign messages workers count taken d) {m : μ}
    {rest : List μ} (first : d.inbound = m :: rest) :
    (taken ++ [m]) ++ rest = messages.take d.entered := by
  rw [← h.entered_eq, first, List.append_assoc]
  rfl

theorem lanes_of_take (h : Keeps device? assign messages workers count taken d) (m : μ)
    (k : Handler) :
    ((taken ++ [m]).filter fun m => handlerOf assign workers (device? m) = k)
      = d.handledBy k ++ (d.waitingFor k
        ++ if handlerOf assign workers (device? m) = k then [m] else []) := by
  rw [List.filter_append, ← h.lanes, List.append_assoc, List.filter_singleton]
  simp

theorem handle (h : Keeps device? assign messages workers count taken d) {m : μ} {rest : List μ}
    (busy : d.phase ≠ .returned) (first : d.inbound = m :: rest)
    (own : handlerOf assign workers (device? m) = .dispatcher) :
    Keeps device? assign messages workers count (taken ++ [m])
      { d with inbound := rest, handled := d.handled ++ [(.dispatcher, m)] } := by
  refine
    { h with
      entered_eq := h.entered_eq_of_take first
      lanes := fun k => ?_
      returned := fun hr => absurd hr busy }
  rw [h.lanes_of_take, handledBy_append (d := d) rfl k, own, List.append_assoc]
  refine congrArg (d.handledBy k ++ ·) ?_
  cases k with
  | dispatcher => simp
  | worker index => simp

theorem forward (h : Keeps device? assign messages workers count taken d) {m : μ} {rest : List μ}
    {index : Nat} (busy : d.phase ≠ .returned) (first : d.inbound = m :: rest)
    (hlt : index < d.queues.length)
    (theirs : handlerOf assign workers (device? m) = .worker index) :
    Keeps device? assign messages workers count (taken ++ [m])
      { d with inbound := rest, queues := d.queues.modify index (· ++ [m]) } := by
  refine
    { h with
      workers_eq := (List.length_modify ..).trans h.workers_eq
      entered_eq := h.entered_eq_of_take first
      lanes := fun k => ?_
      returned := fun hr => absurd hr busy }
  rw [h.lanes_of_take, theirs]
  refine congrArg (d.handledBy k ++ ·) ?_
  cases k with
  | dispatcher => simp
  | worker other =>
    by_cases hother : index = other
    · subst hother
      simp [List.getD_eq_getElem?_getD, hlt]
    · simp [List.getD_eq_getElem?_getD, hother]

theorem finish (h : Keeps device? assign messages workers count taken d)
    (empty : d.inbound = []) :
    Keeps device? assign messages workers count taken d.returnNow :=
  { h with
    returned := fun _ => by
      have hentered := congrArg List.length h.entered_eq
      have := h.messages_prefix.length_le
      have := h.entered_le
      have := h.count_le
      simp only [empty, List.append_nil, List.length_take] at hentered
      omega }

theorem work (h : Keeps device? assign messages workers count taken d) {index : Nat} {m : μ}
    {rest : List μ} (first : d.queues[index]? = some (m :: rest)) :
    Keeps device? assign messages workers count taken
      { d with
        queues := d.queues.set index rest
        handled := d.handled ++ [(.worker index, m)] } := by
  obtain ⟨hlt, hget⟩ := List.getElem?_eq_some_iff.1 first
  refine { h with workers_eq := List.length_set.trans h.workers_eq, lanes := fun k => ?_ }
  rw [handledBy_append (d := d) rfl k, ← h.lanes, List.append_assoc]
  refine congrArg (d.handledBy k ++ ·) ?_
  cases k with
  | dispatcher => simp
  | worker other =>
    by_cases hother : index = other
    · subst hother
      simp [List.getD_eq_getElem?_getD, hlt, hget]
    · simp [List.getD_eq_getElem?_getD, hother]

theorem step (h : Keeps device? assign messages workers count taken d) {move : Move}
    (hstep : d.step device? assign move = some d') :
    ∃ taken', taken <+: taken' ∧ Keeps device? assign messages workers count taken' d' := by
  -- What was taken grows by what the dispatcher takes; a worker only turns a message that waits
  -- into one that was handled.
  cases moves_of_step h.present hstep with
  | arrive enters => exact ⟨taken, List.prefix_rfl, h.arrive enters⟩
  | hangUp asked => exact ⟨taken, List.prefix_rfl, h.hangUp⟩
  | raise => exact ⟨taken, List.prefix_rfl, { h with }⟩
  | notice running asked => exact ⟨taken, List.prefix_rfl, { h with returned := nofun }⟩
  | handle busy first own =>
    rw [h.workers_eq] at own
    exact ⟨_, List.prefix_append _ _, h.handle busy first own⟩
  | forward busy first hlt theirs =>
    rw [h.workers_eq] at theirs
    exact ⟨_, List.prefix_append _ _, h.forward busy first hlt theirs⟩
  | finish empty ended => exact ⟨taken, List.prefix_rfl, h.finish empty⟩
  | work first => exact ⟨taken, List.prefix_rfl, h.work first⟩

theorem run (h : Keeps device? assign messages workers count taken d) (schedule : List Move) :
    ∃ taken', taken <+: taken'
      ∧ Keeps device? assign messages workers count taken' (d.run device? assign schedule) := by
  induction schedule generalizing d taken with
  | nil => exact ⟨taken, List.prefix_rfl, h⟩
  | cons move rest ih =>
    cases hstep : d.step device? assign move with
    | none =>
      obtain ⟨taken', hprefix, hlast⟩ := ih h
      exact ⟨taken', hprefix, by simpa [hstep] using hlast⟩
    | some next =>
      obtain ⟨middle, hmiddle, hnext⟩ := h.step hstep
      obtain ⟨taken', hprefix, hlast⟩ := ih hnext
      exact ⟨taken', hmiddle.trans hprefix, by simpa [hstep] using hlast⟩

theorem handler_eq (h : Keeps device? assign messages workers count taken d) {k : Handler} {m : μ}
    (hmem : (k, m) ∈ d.handled) : k = handlerOf assign workers (device? m) := by
  have hby : m ∈ d.handledBy k :=
    List.mem_map.2 ⟨(k, m), List.mem_filter.2 ⟨hmem, by simp⟩, rfl⟩
  have htaken := List.mem_append_left (d.waitingFor k) hby
  rw [h.lanes, List.mem_filter] at htaken
  exact (of_decide_eq_true htaken.2).symm

theorem handledBy_eq (h : Keeps device? assign messages workers count taken d) (k : Handler) :
    d.handledBy k
      = (d.handled.map (·.2)).filter fun m => handlerOf assign workers (device? m) = k := by
  rw [handledBy, List.filter_map]
  have hsame : d.handled.filter (·.1 = k) = d.handled.filter
      ((fun m => decide (handlerOf assign workers (device? m) = k)) ∘ Prod.snd) :=
    List.filter_congr fun pair hmem => by simp [h.handler_eq (k := pair.1) (m := pair.2) hmem]
  rw [hsame]

theorem lane_prefix (h : Keeps device? assign messages workers count taken d) (k : Handler) :
    ((d.handled.map (·.2)).filter fun m => handlerOf assign workers (device? m) = k)
      <+: taken.filter fun m => handlerOf assign workers (device? m) = k :=
  ⟨d.waitingFor k, by rw [← h.handledBy_eq, h.lanes]⟩

theorem handled_prefix (h : Keeps device? assign messages workers count taken d)
    (key : Option String) :
    ((d.handled.map (·.2)).filter fun m => device? m = key)
      <+: (messages.take d.entered).filter fun m => device? m = key := by
  -- All messages under one key have the same handler, so they keep the order of its lane.
  have hlane (l : List μ) : (l.filter fun m => device? m = key)
      = (l.filter fun m => handlerOf assign workers (device? m)
          = handlerOf assign workers key).filter fun m => device? m = key := by
    rw [List.filter_filter]
    refine List.filter_congr fun m _ => ?_
    by_cases hm : device? m = key
    · simp [hm]
    · simp [hm]
  rw [hlane (d.handled.map _)]
  refine ((h.lane_prefix _).filter _).trans ?_
  rw [← hlane]
  exact h.taken_prefix.filter _

theorem handled_subperm (h : Keeps device? assign messages workers count taken d) :
    (d.handled.map (·.2)).Subperm taken :=
  subperm_of_filter fun k => (h.lane_prefix k).sublist

theorem taken_subperm (h : Keeps device? assign messages workers count taken d)
    (done : d.Done) : taken.Subperm (d.handled.map (·.2)) := by
  refine subperm_of_filter (f := fun m => handlerOf assign workers (device? m)) fun k => ?_
  have hwaiting : d.waitingFor k = [] := by
    cases k with
    | dispatcher => rfl
    | worker index =>
      rw [waitingFor, List.getD_eq_getElem?_getD]
      cases hqueue : d.queues[index]? with
      | none => rfl
      | some queue => exact done.2 queue (List.mem_of_getElem? hqueue)
  have hlane := h.lanes k
  rw [hwaiting, List.append_nil, h.handledBy_eq] at hlane
  rw [hlane]

theorem first_subperm (h : Keeps device? assign messages workers count taken d) (done : d.Done) :
    (messages.take count).Subperm (d.handled.map (·.2)) := by
  have hfirst : messages.take count <+: taken := by
    refine List.prefix_of_prefix_length_le (List.take_prefix _ _)
      (h.taken_prefix.trans (List.take_prefix _ _)) ?_
    exact Nat.le_trans (List.length_take_le _ _) (h.returned done.1)
  exact hfirst.sublist.subperm.trans (h.taken_subperm done)

end Keeps

theorem length_flatten_modify (queues : List (List μ)) (f : List μ → List μ) {index : Nat}
    (hlt : index < queues.length) :
    (queues.modify index f).flatten.length + queues[index].length
      = queues.flatten.length + (f queues[index]).length := by
  induction queues generalizing index with
  | nil => simp at hlt
  | cons queue others ih =>
    cases index with
    | zero =>
      simp only [List.modify_zero_cons, List.flatten_cons, List.length_append,
        List.getElem_cons_zero]
      omega
    | succ index =>
      have := ih (Nat.lt_of_succ_lt_succ hlt)
      simp only [List.modify_succ_cons, List.flatten_cons, List.length_append,
        List.getElem_cons_succ]
      omega

/-- How much there is to do until the end, if nothing more enters. A message that is handed on has
still to be handled. -/
def backlog (d : Dispatch μ) : Nat :=
  2 * d.inbound.length + d.queues.flatten.length
    + match d.phase with
      | .running => if d.shutdown then 2 else 3
      | .draining => 1
      | .returned => 0

theorem exists_work {index : Nat} (hlt : index < d.queues.length) (hqueue : d.queues[index] ≠ []) :
    ∃ d', d.step device? assign (.work index) = some d' ∧ d'.backlog < d.backlog := by
  cases hget : d.queues[index] with
  | nil => exact absurd hget hqueue
  | cons m rest =>
    refine ⟨_, by simp only [step, List.getElem?_eq_getElem hlt, hget]; rfl, ?_⟩
    have hlength := length_flatten_modify d.queues (fun _ => rest) hlt
    rw [hget, List.length_cons, ← List.set_eq_modify] at hlength
    simp only [backlog]
    omega

theorem exists_next (present : d.workersGone = false) (busy : d.phase ≠ .returned)
    (idle : ∀ queue ∈ d.queues, queue = []) {m : μ} {rest : List μ}
    (first : d.inbound = m :: rest) :
    ∃ d', d.step device? assign .next = some d' ∧ d'.backlog < d.backlog := by
  simp only [step, if_neg busy, first, route]
  split
  · refine ⟨_, rfl, ?_⟩
    simp only [backlog, first, List.length_cons]
    omega
  · next device hsome =>
    have hqueues : d.queues.length ≠ 0 := by
      intro hzero
      simp [List.length_eq_zero_iff.1 hzero] at hsome
    have hlt : workerOf assign d.queues.length device < d.queues.length :=
      Nat.mod_lt _ (Nat.pos_of_ne_zero hqueues)
    have hnil : d.queues[workerOf assign d.queues.length device] = [] :=
      idle _ (List.getElem_mem hlt)
    have hroom : hasRoom d.queueCapacity
        (d.queues.getD (workerOf assign d.queues.length device) []) = true := by
      simp [hasRoom, List.getD_eq_getElem?_getD, hlt, hnil]
    refine ⟨_, by simp only [present, Bool.false_eq_true, if_false, hroom, if_true]; rfl, ?_⟩
    have hlength := length_flatten_modify d.queues (· ++ [m]) hlt
    rw [hnil] at hlength
    simp only [backlog, first, List.length_cons, List.length_nil, List.nil_append] at hlength ⊢
    omega

theorem exists_step (present : d.workersGone = false) (undone : ¬ d.Done) :
    ∃ move d', d.step device? assign move = some d' ∧ d'.backlog < d.backlog := by
  by_cases idle : ∀ queue ∈ d.queues, queue = []
  · have busy : d.phase ≠ .returned := fun h => undone ⟨h, idle⟩
    cases first : d.inbound with
    | cons m rest => exact ⟨.next, exists_next present busy idle first⟩
    | nil =>
      cases hphase : d.phase with
      | running =>
        by_cases asked : d.shutdown = true
        · refine ⟨.notice, { d with phase := .draining }, by simp [step, hphase, asked], ?_⟩
          simp [backlog, hphase, asked]
        · refine ⟨.raise, { d with shutdown := true }, rfl, ?_⟩
          simp [backlog, hphase, asked]
      | draining =>
        refine ⟨.finish, d.returnNow, by simp [step, hphase, first], ?_⟩
        simp [backlog, hphase, returnNow]
      | returned => exact absurd hphase busy
  · obtain ⟨queue, hqueue⟩ := not_forall.1 idle
    obtain ⟨hmem, hne⟩ := Classical.not_imp.1 hqueue
    obtain ⟨index, hlt, rfl⟩ := List.getElem_of_mem hmem
    exact ⟨.work index, exists_work hlt hne⟩

/-- A dispatch is never stuck. -/
theorem exists_done (h : Keeps device? assign messages workers count taken d) :
    ∃ rest, (d.run device? assign rest).Done := by
  induction hsize : d.backlog using Nat.strongRecOn generalizing d taken with
  | ind size ih =>
    by_cases hdone : d.Done
    · exact ⟨[], hdone⟩
    · obtain ⟨move, next, hstep, hless⟩ := exists_step h.present hdone
      obtain ⟨taken', -, hnext⟩ := h.step hstep
      obtain ⟨rest, hrest⟩ := ih next.backlog (hsize ▸ hless) hnext rfl
      exact ⟨move :: rest, by simpa [run, hstep] using hrest⟩

/-- A dispatch that nobody asks to shut down: it goes on until all messages have entered and been
taken. -/
def Unhurried (messages : List μ) (d : Dispatch μ) : Prop :=
  d.messages = messages ∧ d.workersGone = false
    ∧ (d.phase = .running ∧ d.shutdown = false
      ∨ d.phase = .returned ∧ messages.length ≤ d.entered ∧ d.inbound = [])

theorem Unhurried.step (h : d.Unhurried messages) {move : Move} (hmove : move ≠ .raise)
    (hstep : d.step device? assign move = some d') : d'.Unhurried messages := by
  obtain ⟨hmessages, hpresent, ⟨hphase, hshutdown⟩ | ⟨hphase, hentered, hinbound⟩⟩ := h
  · cases moves_of_step hpresent hstep with
    | arrive enters => exact ⟨hmessages, hpresent, .inl ⟨hphase, hshutdown⟩⟩
    | hangUp asked => simp [hshutdown] at asked
    | raise => exact absurd rfl hmove
    | notice running asked => simp [hshutdown] at asked
    | handle busy first own => exact ⟨hmessages, hpresent, .inl ⟨hphase, hshutdown⟩⟩
    | forward busy first hlt theirs => exact ⟨hmessages, hpresent, .inl ⟨hphase, hshutdown⟩⟩
    | finish empty ended =>
      obtain hdraining | ⟨-, hall⟩ := ended
      · simp [hphase] at hdraining
      · exact ⟨hmessages, hpresent, .inr ⟨rfl, hmessages ▸ hall, empty⟩⟩
    | work first => exact ⟨hmessages, hpresent, .inl ⟨hphase, hshutdown⟩⟩
  -- After it has returned no message is left that could enter.
  · have hnone : d.messages[d.entered]? = none := List.getElem?_eq_none (hmessages ▸ hentered)
    cases moves_of_step hpresent hstep with
    | arrive enters => simp [hnone] at enters
    | hangUp asked =>
      have hall : d.messages.take d.entered = d.messages :=
        List.take_of_length_le (hmessages ▸ hentered)
      exact ⟨hall.trans hmessages, hpresent, .inr ⟨hphase, hentered, hinbound⟩⟩
    | raise => exact absurd rfl hmove
    | notice running asked => simp [hphase] at running
    | handle busy first own => exact absurd hphase busy
    | forward busy first hlt theirs => exact absurd hphase busy
    | finish empty ended => simp [hphase] at ended
    | work first => exact ⟨hmessages, hpresent, .inr ⟨hphase, hentered, hinbound⟩⟩

theorem Unhurried.run (h : d.Unhurried messages) {schedule : List Move}
    (unraised : .raise ∉ schedule) : (d.run device? assign schedule).Unhurried messages := by
  induction schedule generalizing d with
  | nil => exact h
  | cons move rest ih =>
    have hmove : move ≠ .raise := fun h => unraised (h ▸ List.mem_cons_self)
    have hrest : .raise ∉ rest := fun h => unraised (List.mem_cons_of_mem _ h)
    cases hstep : d.step device? assign move with
    | none => simpa [hstep] using ih h hrest
    | some next => simpa [hstep] using ih (h.step hmove hstep) hrest

theorem Unhurried.perm (h : d.Unhurried messages)
    (hkeeps : Keeps device? assign messages workers count taken d) (done : d.Done) :
    (d.handled.map (·.2)).Perm messages := by
  obtain ⟨-, -, ⟨hrunning, -⟩ | ⟨-, hentered, hinbound⟩⟩ := h
  · exact absurd (hrunning.symm.trans done.1) nofun
  · have hall : taken = messages := by
      rw [← List.append_nil taken, ← hinbound, hkeeps.entered_eq]
      exact List.take_of_length_le hentered
    rw [← hall]
    exact hkeeps.handled_subperm.antisymm (hkeeps.taken_subperm done)

theorem run_append (d : Dispatch μ) (before after : List Move) :
    d.run device? assign (before ++ after)
      = (d.run device? assign before).run device? assign after := List.foldl_append

/-- Under every schedule, with any number of workers, any way to assign readers to them and queues
of any capacity: of the messages of each reader, and of those that concern no single one, the first
ones to enter have been handled, in the order in which they entered, all by the same worker or by
the dispatcher; and nothing is handled twice. When the dispatcher has returned and the workers have
nothing left, all that had entered before it returned has been handled, so also what was waiting
when it noticed a shutdown; and if nobody asked for one, everything has. It can always get there. -/
theorem handled_in_order (device? : μ → Option String) (assign : String → Nat) (messages : List μ)
    (inboundCapacity workers queueCapacity : Nat) (schedule : List Move) :
    let first := start messages inboundCapacity workers queueCapacity
    let d := first.run device? assign schedule
    let entered := messages.take d.entered
    let handled := d.handled.map (·.2)
    (∀ key : Option String, (handled.filter fun m => device? m = key)
        <+: entered.filter fun m => device? m = key)
    ∧ (∀ (who : Handler) (m : μ), (who, m) ∈ d.handled →
        who = handlerOf assign workers (device? m))
    ∧ handled.Subperm entered
    ∧ (d.Done →
        (∀ before after : List Move, schedule = before ++ after →
          (first.run device? assign before).phase ≠ .returned →
          ∃ taken, messages.take (first.run device? assign before).entered
              = taken ++ (first.run device? assign before).inbound
            ∧ (taken ++ (first.run device? assign before).inbound).Subperm handled)
        ∧ (.raise ∉ schedule → handled.Perm messages))
    ∧ ∃ rest, (first.run device? assign (schedule ++ rest)).Done := by
  intro first d entered handled
  have hfirst := keeps_start device? assign messages inboundCapacity workers queueCapacity
  obtain ⟨taken, -, h⟩ := hfirst.run schedule
  refine ⟨h.handled_prefix, fun who m hmem => h.handler_eq hmem,
    h.handled_subperm.trans h.taken_prefix.sublist.subperm, ?_, ?_⟩
  · refine fun done => ⟨fun before after hsplit busy => ?_, fun unraised => ?_⟩
    · obtain ⟨early, -, hbefore⟩ := hfirst.run before
      -- The dispatcher is still at it, so it does not return before it has taken all of these.
      obtain ⟨late, -, hafter⟩ := (hbefore.mark busy).run after
      rw [← run_append, ← hsplit] at hafter
      refine ⟨early, hbefore.entered_eq.symm, ?_⟩
      rw [hbefore.entered_eq]
      exact hafter.first_subperm done
    · have hrun : d.Unhurried messages :=
        Unhurried.run ⟨rfl, rfl, .inl ⟨rfl, rfl⟩⟩ unraised
      exact hrun.perm h done
  · obtain ⟨rest, hrest⟩ := exists_done h
    exact ⟨rest, by rw [run_append]; exact hrest⟩

/-- A shutdown is asked for while messages of two readers wait, and one enters too late. -/
theorem handled_in_order_shutdown :
    let messages : List (Inbound Float) :=
      [.report "dock" 0 [], .startAll, .readerConnected "gate" {}, .readerClosed "dock", .stopAll]
    let assign (reader : String) : Nat := if reader = "dock" then 0 else 1
    let before : List Move := [.arrive, .arrive, .next, .work 0, .arrive, .raise, .arrive]
    let after : List Move :=
      [.notice, .next, .next, .next, .work 1, .finish, .arrive, .work 0, .next]
    let first := start messages 3 2 1
    let b := first.run Inbound.device? assign before
    let d := first.run Inbound.device? assign (before ++ after)
    d.Done ∧ d.entered = 5
      ∧ d.handled.map (fun pair => (pair.1, pair.2.device?))
        = [(.worker 0, some "dock"), (.dispatcher, none), (.worker 1, some "gate"),
            (.worker 0, some "dock")]
      ∧ ∃ taken, messages.take b.entered = taken ++ b.inbound
        ∧ (taken ++ b.inbound).Subperm (d.handled.map (·.2)) := by
  intro messages assign before after first b d
  have busy : b.phase ≠ .returned := by decide +kernel
  have done : d.Done := by
    have hempty : d.queues.all (·.isEmpty) = true := by decide +kernel
    refine ⟨by decide +kernel, fun queue hmem => ?_⟩
    exact List.isEmpty_iff.1 (List.all_eq_true.1 hempty queue hmem)
  obtain ⟨-, -, -, hdone, -⟩ :=
    handled_in_order Inbound.device? assign messages 3 2 1 (before ++ after)
  exact ⟨done, by decide +kernel, by decide +kernel, (hdone done).1 before after rfl busy⟩

end Dispatch

end TagGateway

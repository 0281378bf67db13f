import Mathlib.Data.List.TakeWhile
import TagGateway.Link.Lines

set_option autoImplicit false

namespace TagGateway

def lineOf (octets : Bytes) : Bytes := chomp octets.reverse

def isText (line : Bytes) : Bool := line.toString?.isSome

theorem linesFrom_of_feed (line : Bytes) {octets : Bytes} (h : lineFeed ∉ octets) (rest : Bytes) :
    linesFrom line (octets ++ lineFeed :: rest)
      = chomp (octets.reverse ++ line) :: linesFrom [] rest := by
  induction octets generalizing line with
  | nil => simp [linesFrom]
  | cons b octets ih =>
    obtain ⟨hb, hrest⟩ : lineFeed ≠ b ∧ lineFeed ∉ octets := by simpa using h
    rw [List.cons_append, linesFrom, if_neg (Ne.symm hb), ih (b :: line) hrest]
    simp

/-- Octets up to a line feed are the first line. -/
theorem linesOf_cons {octets : Bytes} (h : lineFeed ∉ octets) (rest : Bytes) :
    linesOf (octets ++ lineFeed :: rest) = lineOf octets :: linesOf rest := by
  simp [linesOf, linesFrom_of_feed [] h, lineOf]

theorem linesFrom_append (line : Bytes) {before : Bytes} (h : before.getLast? = some lineFeed)
    (after : Bytes) :
    linesFrom line (before ++ after) = linesFrom line before ++ linesFrom [] after := by
  induction before generalizing line with
  | nil => simp at h
  | cons b before ih =>
    cases before with
    | nil =>
      obtain rfl : b = lineFeed := by simpa using h
      simp [linesFrom]
    | cons c before =>
      have hlast : (c :: before).getLast? = some lineFeed := by simpa using h
      by_cases hb : b = lineFeed
      · simp only [List.cons_append, linesFrom, if_pos hb]
        exact congrArg _ (ih [] hlast)
      · rw [List.cons_append, linesFrom, linesFrom, if_neg hb, if_neg hb, ih (b :: line) hlast]

theorem linesOf_append {before : Bytes} (h : before = [] ∨ before.getLast? = some lineFeed)
    (after : Bytes) : linesOf (before ++ after) = linesOf before ++ linesOf after := by
  obtain rfl | hlast := h
  · simp [linesOf, linesFrom]
  · exact linesFrom_append [] hlast after

variable {R : Type} [Level R] [Wire R]

def messageOf? (line : Bytes) : Option (Inbound R) :=
  line.toString?.bind fun text => (Inbound.ofLine text).toOption

theorem messagesOf_eq (lines : List Bytes) :
    messagesOf (R := R) lines = (lines.takeWhile isText).filterMap messageOf? := by
  induction lines with
  | nil => rfl
  | cons line rest ih =>
    cases htext : line.toString? with
    | none => simp [messagesOf, isText, htext]
    | some text =>
      cases hmessage : Inbound.ofLine (R := R) text with
      | error e => simp [messagesOf, isText, messageOf?, htext, hmessage, ih, Except.toOption]
      | ok message => simp [messagesOf, isText, messageOf?, htext, hmessage, ih, Except.toOption]

theorem messagesOf_insert {line : Bytes} (htext : isText line)
    (hnone : messageOf? (R := R) line = none) (lines rest : List Bytes) :
    messagesOf (R := R) (lines ++ line :: rest) = messagesOf (lines ++ rest) := by
  induction lines with
  | nil => simp [messagesOf_eq, htext, hnone]
  | cons first lines ih =>
    simp only [messagesOf_eq, List.cons_append, List.takeWhile_cons] at ih ⊢
    split
    · simp [List.filterMap_cons, ih]
    · rfl

theorem messagesOf_break {line : Bytes} (htext : isText line = false)
    (lines rest : List Bytes) :
    messagesOf (R := R) (lines ++ line :: rest) = messagesOf lines := by
  induction lines with
  | nil => simp [messagesOf_eq, htext]
  | cons first lines ih =>
    simp only [messagesOf_eq, List.cons_append, List.takeWhile_cons] at ih ⊢
    split
    · simp [List.filterMap_cons, ih]
    · rfl

/-- The messages of a stream are those of its lines up to the first one that is no text. A line
put into it that is no message changes nothing if it is text, and else ends the stream there. -/
theorem messages_of_stream (stream : Bytes) :
    messagesOf (R := R) (linesOf stream)
      = ((linesOf stream).takeWhile isText).filterMap messageOf?
    ∧ ((∀ line ∈ linesOf stream, isText line) →
        messagesOf (R := R) (linesOf stream) = (linesOf stream).filterMap messageOf?)
    ∧ ∀ before bad after : Bytes, stream = before ++ after →
        (before = [] ∨ before.getLast? = some lineFeed) → lineFeed ∉ bad →
        messageOf? (R := R) (lineOf bad) = none →
        messagesOf (R := R) (linesOf (before ++ (bad ++ lineFeed :: after)))
          = if isText (lineOf bad) then messagesOf (linesOf stream)
            else messagesOf (linesOf before) := by
  refine ⟨messagesOf_eq _, fun h => ?_, fun before bad after heq hcut hfeed hnone => ?_⟩
  · rw [messagesOf_eq, List.takeWhile_eq_self_iff.2 h]
  · rw [heq, linesOf_append hcut, linesOf_append hcut, linesOf_cons hfeed]
    split
    · next htext => exact messagesOf_insert htext hnone _ _
    · next htext => exact messagesOf_break (Bool.eq_false_iff.2 htext) _ _

/-- A broken line before a good one. -/
theorem messages_of_stream_broken :
    let good := Bytes.ofString "\x7b\"type\":\"stop_all\"\x7d" ++ [lineFeed]
    (messagesOf (R := Float) (linesOf good)).map Inbound.kind = ["stop_all"]
      ∧ messagesOf (R := Float) (linesOf ([] ++ (Bytes.ofString "oops" ++ lineFeed :: good)))
        = messagesOf (linesOf good)
      ∧ messagesOf (R := Float) (linesOf ([] ++ ([0xFF] ++ lineFeed :: good))) = [] := by
  intro good
  have hgood : (messagesOf (R := Float) (linesOf good)).map Inbound.kind = ["stop_all"] := by
    decide +kernel
  have hinsert (bad : Bytes) :=
    (messages_of_stream (R := Float) good).2.2 [] bad good rfl (.inl rfl)
  have htext := hinsert (Bytes.ofString "oops") (by decide) (by rfl)
  have hbroken := hinsert [0xFF] (by decide) (by rfl)
  exact ⟨hgood, htext.trans (if_pos (by rfl)), hbroken.trans (if_neg (by decide))⟩

/-- A stream whose only message is not read. -/
theorem messageOf?_after_broken :
    let stream := [0xFF, lineFeed] ++ Bytes.ofString "\x7b\"type\":\"stop_all\"\x7d"
    ((linesOf stream).filterMap (messageOf? (R := Float))).map Inbound.kind = ["stop_all"]
      ∧ (messagesOf (R := Float) (linesOf stream)).map Inbound.kind = [] := by
  decide +kernel

end TagGateway

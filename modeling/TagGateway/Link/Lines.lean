import TagGateway.Link.Message

/-!
Streams of octets as lines. A line ends with a line feed, which a carriage return may stand before;
the last line need not end. Lines that are no message are skipped, but one that is no text ends the
reading.
-/

set_option autoImplicit false

namespace TagGateway

def lineFeed : UInt8 := 0x0A
def carriageReturn : UInt8 := 0x0D

/-- A line from its octets, newest first, without the carriage return at its end. -/
def chomp : Bytes → Bytes
  | b :: rest => if b = carriageReturn then rest.reverse else (b :: rest).reverse
  | [] => []

/-- The lines of a stream, given the octets of the first line so far, newest first. -/
def linesFrom (line : Bytes) : Bytes → List Bytes
  | [] => if line.isEmpty then [] else [line.reverse]
  | b :: rest =>
    if b = lineFeed then chomp line :: linesFrom [] rest else linesFrom (b :: line) rest

def linesOf (stream : Bytes) : List Bytes := linesFrom [] stream

variable {R : Type} [Wire R]

def messagesOf [Level R] : List Bytes → List (Inbound R)
  | [] => []
  | line :: rest =>
    match line.toString? with
    | none => []
    | some text =>
      match Inbound.ofLine text with
      | .ok message => message :: messagesOf rest
      | .error _ => messagesOf rest

def streamOf (messages : List (Outbound R)) : Bytes :=
  messages.flatMap fun m => m.line ++ [lineFeed]

end TagGateway

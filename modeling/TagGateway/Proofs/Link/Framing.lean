import TagGateway.Proofs.Inventory.Lossless
import TagGateway.Proofs.Json.Plain
import TagGateway.Proofs.Link.Lines
import TagGateway.Proofs.Reader.Lossless

set_option autoImplicit false

namespace TagGateway

theorem lineOf_of_not_mem {octets : Bytes} (h : carriageReturn ∉ octets) :
    lineOf octets = octets := by
  unfold lineOf
  cases hlast : octets.reverse with
  | nil => simpa [chomp] using hlast
  | cons b rest =>
    have hb : b ≠ carriageReturn := fun heq =>
      h (List.mem_reverse.1 (hlast ▸ heq ▸ List.mem_cons_self))
    rw [chomp, if_neg hb, ← hlast, List.reverse_reverse]

theorem Json.Plain.not_mem {octets : Bytes} (h : Json.Plain octets) {b : UInt8} (hb : b < 0x20) :
    b ∉ octets := fun hmem => UInt8.not_le.2 hb (h.printable b hmem)

section Lines

variable {R : Type} [Wire R]

theorem Outbound.plain_line (message : Outbound R) : Json.Plain message.line :=
  Json.plain_print _

/-- What a message says in JSON: of which kind it is, and what there is to tell. -/
def Outbound.Says (message : Outbound R) (json : Json) : Prop :=
  match message with
  | .events batch => ∃ content, json = .obj [("type", .str "events"), ("events", content)]
    ∧ Wire.read .text content = some batch
  | .command device told => ∃ content,
    json = .obj [("type", .str "device_command"), ("device", .str device), ("command", content)]
    ∧ Wire.read .text content = some told
  | .inventory records =>
    json = .obj [("type", .str "inventory"), ("tags", (Wire.write records).reread)]
  | .error message => json = .obj [("type", .str "error"), ("message", .str message)]

theorem Outbound.says_reread (message : Outbound R) : message.Says message.toJson.reread := by
  cases message with
  | events batch => exact ⟨_, rfl, (Wire.passes batch).read .text⟩
  | command device told => exact ⟨_, rfl, (Wire.passes told).read .text⟩
  | inventory records => rfl
  | error text => rfl

theorem linesOf_streamOf (messages : List (Outbound R)) :
    linesOf (streamOf messages) = messages.map Outbound.line := by
  induction messages with
  | nil => rfl
  | cons message rest ih =>
    have hplain := message.plain_line
    have hstream : streamOf (message :: rest) = message.line ++ lineFeed :: streamOf rest := by
      simp [streamOf]
    rw [hstream, linesOf_cons (hplain.not_mem (by decide)), ih, List.map_cons,
      lineOf_of_not_mem (hplain.not_mem (by decide))]

end Lines

def hexDigits : List Char := "0123456789abcdef".toList

theorem digitChar_mem_hexDigits : ∀ n < 16, Nat.digitChar n ∈ hexDigits := by
  decide

theorem Octets.mem_hexDigits_of_mem_hex {octets : Octets} {c : Char} (h : c ∈ octets.hex.toList) :
    c ∈ hexDigits := by
  simp only [hex, hexChars, String.toList_ofList, List.mem_flatMap] at h
  obtain ⟨b, -, hc⟩ := h
  have hb := b.toNat_lt
  simp only [pair, List.mem_cons, List.not_mem_nil, or_false] at hc
  rcases hc with rfl | rfl
  · exact digitChar_mem_hexDigits _ (by omega)
  · exact digitChar_mem_hexDigits _ (by omega)

/-- Every reading, capability answer, behavior, environment, event, configuration, operation and
command is read from its text as it was written; octets travel as lower-case hexadecimal text. Each
message is text without a line break that says what the message does, and what is written of several
splits into their lines. -/
theorem lossless_and_framed :
    (∀ v : Reading, Wire.decode? (Wire.encode v) = some v)
    ∧ (∀ v : Capabilities, Wire.decode? (Wire.encode v) = some v)
    ∧ (∀ v : Behavior, Wire.decode? (Wire.encode v) = some v)
    ∧ (∀ v : Environment, Wire.decode? (Wire.encode v) = some v)
    ∧ (∀ v : Event, Wire.decode? (Wire.encode v) = some v)
    ∧ (∀ v : ReaderConfig, Wire.decode? (Wire.encode v) = some v)
    ∧ (∀ v : RoSpec, Wire.decode? (Wire.encode v) = some v)
    ∧ (∀ v : Command, Wire.decode? (Wire.encode v) = some v)
    ∧ (∀ octets : Octets, Wire.write octets = .str octets.hex
        ∧ ∀ c ∈ octets.hex.toList, c ∈ hexDigits)
    ∧ (∀ {R : Type} [Wire R] (message : Outbound R),
        (∃ text : String, Bytes.ofString text = message.line)
        ∧ lineFeed ∉ message.line ∧ carriageReturn ∉ message.line
        ∧ ∃ json, Json.parse message.line = some json ∧ message.Says json)
    ∧ ∀ {R : Type} [Wire R] (messages : List (Outbound R)),
        linesOf (streamOf messages) = messages.map Outbound.line := by
  refine ⟨Wire.decode?_encode, Wire.decode?_encode, Wire.decode?_encode, Wire.decode?_encode,
    Wire.decode?_encode, Wire.decode?_encode, Wire.decode?_encode, Wire.decode?_encode,
    fun octets => ⟨rfl, fun c hc => Octets.mem_hexDigits_of_mem_hex hc⟩, fun message => ?_,
    linesOf_streamOf⟩
  have hplain := message.plain_line
  exact ⟨hplain.text, hplain.not_mem (by decide), hplain.not_mem (by decide),
    _, Json.parse_print _, message.says_reread⟩

end TagGateway

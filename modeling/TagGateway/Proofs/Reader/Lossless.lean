import TagGateway.Proofs.Reading.Lossless
import TagGateway.Reader.CapabilitiesWire
import TagGateway.Reader.OperationWire
import TagGateway.Scan.BehaviorWire

set_option autoImplicit false

namespace TagGateway

open Wire (Definite Lossless Passes field passes)

instance : Definite GpioCounts :=
  .ofRecord (fun _ => rfl) (fun _ => rfl) (fun _ => by simp) fun _ _ =>
    .required (passes _) <| .required (passes _) <| .done _

instance : Definite GeneralCapabilities :=
  .ofRecord (fun _ => rfl) (fun _ => rfl) (fun _ => by simp) fun _ _ =>
    .orElse (passes _) <| .orElse (passes _) <| .orElse (passes _) <| .orElse (passes _) <|
    .orElse (passes _) <| .orElse (passes _) <| .orElse (passes _) <| .done _

instance : Definite ProtocolCapabilities :=
  .ofRecord (fun _ => rfl) (fun _ => rfl) (fun _ => by simp) fun _ _ =>
    .orElse (passes _) <| .orElse (passes _) <| .orElse (passes _) <| .orElse (passes _) <|
    .orElse (passes _) <| .orElse (passes _) <| .orElse (passes _) <| .orElse (passes _) <|
    .orElse (passes _) <| .orElse (passes _) <| .orElse (passes _) <| .done _

instance : Definite PowerLevel :=
  .ofRecord (fun _ => rfl) (fun _ => rfl) (fun _ => by simp) fun _ _ =>
    .required (passes _) <| .required (passes _) <| .done _

instance : Definite HopTable :=
  .ofRecord (fun _ => rfl) (fun _ => rfl) (fun _ => by simp) fun _ _ =>
    .required (passes _) <| .required (passes _) <| .done _

instance : Definite FixedTable :=
  .ofRecord (fun _ => rfl) (fun _ => rfl) (fun _ => by simp) fun _ _ =>
    .required (passes _) <| .done _

instance : Definite FrequencyTables :=
  .ofRecord (fun _ => rfl) (fun _ => rfl) (fun _ => by simp) fun _ _ =>
    .orElse (passes _) <| .orElse (passes _) <| .orElse (passes _) <| .done _

instance : Definite SpectralMask := .ofChoice fun m => by cases m <;> rfl

instance : Definite Modulation := .ofChoice fun m => by cases m <;> rfl

instance : Definite DivideRatio := .ofChoice fun r => by cases r <;> rfl

instance : Definite ForwardModulation := .ofChoice fun m => by cases m <;> rfl

instance : Definite RfMode :=
  .ofRecord (fun _ => rfl) (fun _ => rfl) (fun _ => by simp) fun _ _ =>
    .orElse (passes _) <| .orElse (passes _) <| .orElse (passes _) <| .orElse (passes _) <|
    .orElse (passes _) <| .orElse (passes _) <| .orElse (passes _) <| .orElse (passes _) <|
    .orElse (passes _) <| .orElse (passes _) <| .orElse (passes _) <| .done _

instance : Definite UhfCapabilities :=
  .ofRecord (fun _ => rfl) (fun _ => rfl) (fun _ => by simp) fun _ _ =>
    .orElse (passes _) <| .orElse (passes _) <| .orElse (passes _) <| .done _

instance : Definite RegulatoryCapabilities :=
  .ofRecord (fun _ => rfl) (fun _ => rfl) (fun _ => by simp) fun _ _ =>
    .orElse (passes _) <| .orElse (passes _) <| .orElse (passes _) <| .done _

instance : Definite AirCapabilities :=
  .ofRecord (fun _ => rfl) (fun _ => rfl) (fun _ => by simp) fun _ _ =>
    .orElse (passes _) <| .orElse (passes _) <| .orElse (passes _) <| .orElse (passes _) <|
    .orElse (passes _) <| .orElse (passes _) <| .orElse (passes _) <| .done _

instance : Definite Capabilities :=
  .ofRecord (fun _ => rfl) (fun _ => rfl) (fun _ => by simp) fun _ _ =>
    .orElse (passes _) <| .orElse (passes _) <| .orElse (passes _) <| .orElse (passes _) <|
    .orElse (passes _) <| .done _

instance : Definite ScanType := .ofChoice fun t => by cases t <;> rfl

instance : Definite GpiTrigger :=
  .ofRecord (fun _ => rfl) (fun _ => rfl) (fun _ => by simp) fun _ _ =>
    .required (passes _) <| .required (passes _) <| .orElse (passes _) <| .done _

instance : Definite ImpinjOptions :=
  .ofRecord (fun _ => rfl) (fun _ => rfl) (fun _ => by simp) fun _ _ =>
    .orElse (passes _) <| .done _

instance : Definite Behavior :=
  .ofRecord (fun _ => rfl) (fun _ => rfl) (fun _ => by simp) fun _ _ =>
    .orElse (passes _) <| .orElse (passes _) <| .orElse (passes _) <| .orElse (passes _) <|
    .orElse (passes _) <| .orElse (passes _) <| .done _

instance : Definite Environment :=
  .ofRecord (fun _ => rfl) (fun _ => rfl) (fun _ => by simp) fun _ _ =>
    .orElse (passes _) <| .orElse (passes _) <| .orElse (passes _) <| .done _

instance : Definite ReportContent :=
  .ofRecord (fun _ => rfl) (fun _ => rfl) (fun _ => by simp) fun _ _ =>
    .orElse (passes _) <| .orElse (passes _) <| .orElse (passes _) <| .orElse (passes _) <|
    .orElse (passes _) <| .orElse (passes _) <| .orElse (passes _) <| .orElse (passes _) <|
    .orElse (passes _) <| .orElse (passes _) <| .done _

instance : Definite ReportTrigger := .ofChoice fun t => by cases t <;> rfl

instance : Definite ReportSpec :=
  .ofRecord (fun _ => rfl) (fun _ => rfl) (fun _ => by simp) fun _ _ =>
    .required (passes _) <| .required (passes _) <| .required (passes _) <| .orElse (passes _) <|
    .done _

instance : Definite ReaderEvent := .ofChoice fun e => by cases e <;> rfl

instance : Definite EventNotifications :=
  .ofRecord (fun _ => rfl) (fun _ => rfl) (fun _ => by simp) fun _ _ =>
    .required (passes _) <| .done _

instance : Definite Keepalive :=
  .ofRecord (fun _ => rfl) (fun _ => rfl) (fun _ => by simp) fun _ _ =>
    .required (passes _) <| .required (passes _) <| .done _

instance : Definite Transmitter :=
  .ofRecord (fun _ => rfl) (fun _ => rfl) (fun _ => by simp) fun _ _ =>
    .required (passes _) <| .required (passes _) <| .required (passes _) <| .done _

instance : Definite Receiver :=
  .ofRecord (fun _ => rfl) (fun _ => rfl) (fun _ => by simp) fun _ _ =>
    .required (passes _) <| .done _

instance : Definite MemoryBank := .ofChoice fun b => by cases b <;> rfl

instance : Definite TagMask :=
  .ofRecord (fun _ => rfl) (fun _ => rfl) (fun _ => by simp) fun _ _ =>
    .required (passes _) <| .required (passes _) <| .orElse (passes _) <| .orElse (passes _) <|
    .done _

instance : Definite FilterTarget := .ofChoice fun t => by cases t <;> rfl

instance : Definite FilterAction := .ofChoice fun a => by cases a <;> rfl

instance : Definite StateAwareFilter :=
  .ofRecord (fun _ => rfl) (fun _ => rfl) (fun _ => by simp) fun _ _ =>
    .required (passes _) <| .required (passes _) <| .done _

instance : Definite SelectFilter :=
  .ofRecord (fun _ => rfl) (fun _ => rfl) (fun _ => by simp) fun _ _ =>
    .required (passes _) <| .required (passes _) <| .nullable (passes _) <| .done _

instance : Definite RfControl :=
  .ofRecord (fun _ => rfl) (fun _ => rfl) (fun _ => by simp) fun _ _ =>
    .required (passes _) <| .required (passes _) <| .done _

instance : Definite SessionState := .ofChoice fun s => by cases s <;> rfl

instance : Definite SelectedState := .ofChoice fun s => by cases s <;> rfl

instance : Definite StateAwareSingulation :=
  .ofRecord (fun _ => rfl) (fun _ => rfl) (fun _ => by simp) fun _ _ =>
    .required (passes _) <| .required (passes _) <| .done _

instance : Definite Singulation :=
  .ofRecord (fun _ => rfl) (fun _ => rfl) (fun _ => by simp) fun _ _ =>
    .required (passes _) <| .required (passes _) <| .required (passes _) <|
    .nullable (passes _) <| .done _

instance : Definite InventoryCommand :=
  .ofRecord (fun _ => rfl) (fun _ => rfl) (fun _ => by simp) fun _ _ =>
    .orElse (passes _) <| .orElse (passes _) <| .orElse (passes _) <| .orElse (passes _) <|
    .orElse (passes _) <| .done _

instance : Definite AntennaConfig :=
  .ofRecord (fun _ => rfl) (fun _ => rfl) (fun _ => by simp) fun _ _ =>
    .orElse (passes _) <| .orElse (passes _) <| .orElse (passes _) <| .orElse (passes _) <|
    .done _

instance : Definite InventorySpec :=
  .ofRecord (fun _ => rfl) (fun _ => rfl) (fun _ => by simp) fun _ _ =>
    .required (passes _) <| .required (passes _) <| .orElse (passes _) <| .done _

instance : Definite AiStopKind := .ofChoice fun k => by cases k <;> rfl

instance : Definite AiStop :=
  .ofRecord (fun _ => rfl) (fun _ => rfl) (fun _ => by simp) fun _ _ =>
    .required (passes _) <| .required (passes _) <| .done _

instance : Definite AiSpec :=
  .ofRecord (fun _ => rfl) (fun _ => rfl) (fun _ => by simp) fun _ _ =>
    .required (passes _) <| .required (passes _) <| .required (passes _) <| .done _

instance : Definite GpiStart :=
  .ofRecord (fun _ => rfl) (fun _ => rfl) (fun _ => by simp) fun _ _ =>
    .required (passes _) <| .required (passes _) <| .required (passes _) <| .done _

theorem StartTrigger.passes_gpi (value : GpiStart) :
    Passes (Lossless.depth GpiStart + 1) (StartTrigger.gpi value) (.gpi value) := by
  refine .alternative rfl (passes value).sound fun origin => ?_
  have hread : Wire.read origin (.obj [("gpi", (Wire.write value).reread)])
      = (Wire.read origin (Wire.write value).reread).map StartTrigger.gpi := by
    simp [Wire.read]
  rw [hread, (passes value).read]
  rfl

instance : Definite StartTrigger where
  depth := Lossless.depth GpiStart + 1
  passes
    | .null | .immediate => { sound := rfl, read := fun _ => rfl }
    | .gpi value => StartTrigger.passes_gpi value
  refuses _ := rfl

theorem StopTrigger.passes_duration (ms : UInt32) :
    Passes 2 (StopTrigger.duration ms) (.duration ms) := by
  have hgives (origin : Origin) : StopTrigger.readDuration.Gives 0 origin [field "duration_ms" ms]
      [field "duration_ms" ms] (.duration ms) :=
    .mono (.required (passes _) <| .done _) (by decide)
  refine .alternative rfl (hgives .text).sound_obj fun origin => ?_
  have hread : Wire.read origin (.obj [("duration", (Json.obj [field "duration_ms" ms]).reread)])
      = StopTrigger.readDuration.run origin (Json.obj [field "duration_ms" ms]).reread := by
    simp [Wire.read]
  rw [hread, (hgives origin).run (by simp)]

instance : Definite StopTrigger where
  depth := 2
  passes
    | .null => { sound := rfl, read := fun _ => rfl }
    | .duration ms => StopTrigger.passes_duration ms
  refuses _ := rfl

instance : Definite Boundary :=
  .ofRecord (fun _ => rfl) (fun _ => rfl) (fun _ => by simp) fun _ _ =>
    .required (passes _) <| .required (passes _) <| .done _

instance : Definite RoSpecState := .ofChoice fun s => by cases s <;> rfl

instance : Definite RoSpec :=
  .ofRecord (fun _ => rfl) (fun _ => rfl) (fun _ => by simp) fun _ _ =>
    .required (passes _) <| .required (passes _) <| .required (passes _) <|
    .required (passes _) <| .required (passes _) <| .nullable (passes _) <| .done _

instance : Definite ReaderConfig :=
  .ofRecord (fun _ => rfl) (fun _ => rfl) (fun _ => by simp) fun _ _ =>
    .orElse (passes _) <| .orElse (passes _) <| .orElse (passes _) <| .orElse (passes _) <|
    .orElse (passes _) <| .orElse (passes _) <| .orElse (passes _) <| .done _

theorem Command.passes_id {make : UInt32 → Command} {tag : String} {id : UInt32}
    (writes : Wire.write (make id) = Tagged.write "op" tag [field "id" id])
    (kind : Command.fieldsOf? tag = some (readId make)) : Passes 1 (make id) (make id) :=
  .mono (.tagged (fun _ _ => rfl) writes kind (by simp)
    (.required (passes _) <| .done _) (by decide)) (by decide)

instance : Definite Command where
  depth := max (Lossless.depth ReaderConfig) (Lossless.depth RoSpec) + 1
  passes
    | .setConfig config =>
      .mono (.tagged (fun _ _ => rfl) rfl rfl (by simp)
        (.required (passes config) <| .done _) (by decide)) (by decide)
    | .add spec =>
      .mono (.tagged (fun _ _ => rfl) rfl rfl (by simp)
        (.required (passes spec) <| .done _) (by decide)) (by decide)
    | .deleteAll =>
      .mono (.tagged (fun _ _ => rfl) rfl rfl (by simp) (.done _) (by decide)) (by decide)
    | .enable _ | .disable _ | .start _ | .stop _ =>
      .mono (Command.passes_id rfl rfl) (by decide)
  refuses _ := rfl

end TagGateway

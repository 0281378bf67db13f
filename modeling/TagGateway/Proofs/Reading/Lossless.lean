import TagGateway.Proofs.Wire.Lossless
import TagGateway.Reading.Wire

set_option autoImplicit false

namespace TagGateway

open Wire (Definite field passes)
open Fields (Gives)

instance : Definite CustomParameter :=
  .ofRecord (fun _ => rfl) (fun _ => rfl) (fun _ => by simp) fun _ _ =>
    .required (passes _) <| .required (passes _) <| .orElse (passes _) <| .done _

instance : Definite ShortEpc :=
  .ofRecord (fun _ => rfl) (fun _ => rfl) (fun _ => by simp) fun _ _ =>
    .required (passes _) <| .done _

instance : Definite LongEpc :=
  .ofRecord (fun _ => rfl) (fun _ => rfl) (fun _ => by simp) fun _ _ =>
    .required (passes _) <| .orElse (passes _) <| .done _

instance : Definite MemoryRead :=
  .ofRecord (fun _ => rfl) (fun _ => rfl) (fun _ => by simp) fun _ _ =>
    .required (passes _) <| .required (passes _) <| .orElse (passes _) <| .done _

theorem ReportFields.gives (origin : Origin) (members : List (String × Json)) (f : ReportFields) :
    Gives 0 origin members ReportFields.read f.members f :=
  Gives.mono
    (.orElse (passes _) <| .orElse (passes _) <| .orElse (passes _) <| .orElse (passes _) <|
      .orElse (passes _) <| .orElse (passes _) <| .orElse (passes _) <| .orElse (passes _) <|
      .orElse (passes _) <| .orElse (passes _) <| .orElse (passes _) <| .orElse (passes _) <|
      .done _)
    (by decide)

instance : Definite Reading :=
  .ofRecord (fun _ => rfl) (fun _ => rfl) (fun _ => by simp [ReportFields.members])
    fun _ _ =>
      .orElse (passes _) <| .orElse (passes _) <| .bind (ReportFields.gives _ _ _) <|
      .orElse (passes _) <| .orElse (passes _) <| .done _

end TagGateway

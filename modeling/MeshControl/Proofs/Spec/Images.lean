import MeshControl.Proofs.Outcome
import MeshControl.Spec.Execution

/-!
# Images of any specification

Whatever words are executed, an image carries the number it is filed under and never more bytes
than its region has room for.
-/

namespace MeshControl.Spec

/-- Images are filed under their numbers and fit their regions. -/
structure Fits (images : OrderedMap RegionId Image) : Prop where
  filed : ∀ {id image}, images.get? id = some image → image.region.id = id
  room : ∀ {id image}, images.get? id = some image →
    image.data.length ≤ image.region.size.toNat

theorem Fits.empty : Fits .empty where
  filed found := by cases found
  room found := by cases found

theorem Fits.insert {images : OrderedMap RegionId Image} (fits : Fits images) (image : Image)
    (room : image.data.length ≤ image.region.size.toNat) :
    Fits (images.insert image.region.id image) := by
  constructor
  · intro id found look
    rw [OrderedMap.get?_insert] at look
    by_cases same : image.region.id = id
    · rw [if_pos same] at look
      cases look
      exact same
    · rw [if_neg same] at look
      exact fits.filed look
  · intro id found look
    rw [OrderedMap.get?_insert] at look
    by_cases same : image.region.id = id
    · rw [if_pos same] at look
      cases look
      exact room
    · rw [if_neg same] at look
      exact fits.room look

theorem Progress.append_fits {progress next : Progress} (fits : Fits progress.images)
    {position : Nat} {data : Bytes} (ok : progress.append position data = .ok next) :
    Fits next.images := by
  unfold Progress.append at ok
  split at ok
  · cases ok
  · rename_i image focus
    split at ok
    · rename_i room
      cases ok
      apply fits.insert { image with data := image.data ++ data }
      rw [List.length_append]
      exact room
    · cases ok

theorem Progress.step_fits {progress next : Progress} (fits : Fits progress.images)
    {located : Located} (ok : progress.step located = .ok next) : Fits next.images := by
  obtain ⟨position, command⟩ := located
  cases command with
  | nop =>
    cases ok
    exact fits
  | reserve region size unfilled =>
    simp only [Progress.step] at ok
    split at ok
    · cases ok
    · cases ok
      exact fits.insert ⟨⟨region, size, plainLabel region, unfilled⟩, []⟩ (Nat.zero_le _)
  | focus region =>
    simp only [Progress.step] at ok
    split at ok
    · cases ok
      exact fits
    · cases ok
  | write value width repeats => exact append_fits fits ok
  | writeArray values => exact append_fits fits ok

theorem Progress.run_fits {progress last : Progress} (fits : Fits progress.images)
    {commands : List Located} (ok : progress.run commands = .ok last) : Fits last.images := by
  induction commands generalizing progress with
  | nil =>
    cases ok
    exact fits
  | cons located rest ih =>
    rw [Progress.run] at ok
    obtain ⟨next, step, ok⟩ := exists_of_bind_eq_ok ok
    exact ih (step_fits fits step) ok

/-- **Executed images fit their regions.** -/
theorem Program.execute_fits {program : Program} {execution : Execution}
    (ok : program.execute = .ok execution) : Fits execution.images := by
  unfold Program.execute at ok
  cases ran : program.run with
  | error fault =>
    rw [ran] at ok
    cases ok
  | ok result =>
    rw [ran] at ok
    cases ok
    unfold Program.run at ran
    have passed := not_of_guard_eq_ok ran
    obtain ⟨-, ran⟩ := passed
    obtain ⟨last, progress, ran⟩ := exists_of_bind_eq_ok ran
    have fits : Fits last.images := Progress.run_fits .empty progress
    split at ran
    · cases ran
    · cases ran
      exact fits

end MeshControl.Spec

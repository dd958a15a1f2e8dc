import MaterialLowering.Proofs.Shaders.Surfaces
import MaterialLowering.Proofs.Walks.Operations

/-!
# Images are shared

Images are the same exactly when their descriptors are: whoever asks for an image, directly or while a
material is lowered, gets the handle that was given for this descriptor before, and no handle is given
for two descriptors. Handles are places in the list of images, which only grows at its end, so that a
handle stands for the same image ever after.

Main definitions:
* `Recording.ImagesShared`: no image is there twice, and none that cannot be loaded.
* `Session.Returned`: an image was asked for in a session, and this handle was returned.

Results:
* `Recording.ImagesShared.perform`: one operation keeps images shared.
* `Recording.materialize_eq_ok_iff`: when an image is found, and where it is then.
* `Session.images_shared`: throughout a session images are shared exactly when they are identical.
-/

namespace MaterialLowering


namespace Recording

/-- No image is there twice, and none that cannot be loaded. -/
structure ImagesShared (r : Recording) : Prop where
  distinct : r.images.Nodup
  loaded : ∀ descriptor ∈ r.images, r.failing.contains descriptor.name = false

variable {r : Recording} {descriptor : ImageDescriptor} {handle : ImageHandle}

/-! ## One operation -/

@[simp] theorem materialize_failing_eq (r : Recording) (descriptor : ImageDescriptor) :
    (r.materialize descriptor).2.failing = r.failing :=
  (r.materialize_extends descriptor).failing

/-- What a descriptor that can be loaded adds to the images. -/
theorem materialize_images (h : r.failing.contains descriptor.name = false) :
    (r.materialize descriptor).2.images =
      if descriptor ∈ r.images then r.images else r.images ++ [descriptor] := by
  unfold materialize
  rw [if_neg (by simp [h])]
  by_cases there : descriptor ∈ r.images
  · rw [if_pos there]
    dsimp only
    rw [if_pos (List.idxOf_lt_length_iff.2 there)]
  · rw [if_neg there]
    dsimp only
    rw [if_neg fun lt => there (List.idxOf_lt_length_iff.1 lt)]

/-- An image is found exactly if it can be loaded, and then it is where the handle says. -/
theorem materialize_eq_ok_iff :
    (r.materialize descriptor).1 = .ok handle ↔
      r.failing.contains descriptor.name = false ∧ handle.index = r.images.idxOf descriptor := by
  constructor
  · intro returned
    cases lost : r.failing.contains descriptor.name with
    | true =>
      rw [materialize_failing lost] at returned
      cases returned
    | false =>
      rw [(materialize_loaded lost).1] at returned
      cases returned
      exact ⟨rfl, rfl⟩
  · rintro ⟨loaded, place⟩
    rw [(materialize_loaded loaded).1, ← place]

/-- An image that is not found leaves everything as it was. -/
theorem materialize_of_error {error : ImageError} (failed : (r.materialize descriptor).1 = .error error) :
    error = .notFound descriptor.name ∧ (r.materialize descriptor).2 = r := by
  cases lost : r.failing.contains descriptor.name with
  | true =>
    rw [materialize_failing lost] at failed ⊢
    cases failed
    exact ⟨rfl, rfl⟩
  | false =>
    rw [(materialize_loaded lost).1] at failed
    cases failed

/-- An image that was found is in the place that the handle says. -/
theorem getElem?_of_materialize (returned : (r.materialize descriptor).1 = .ok handle) :
    (r.materialize descriptor).2.images[handle.index]? = some descriptor := by
  obtain ⟨loaded, place⟩ := materialize_eq_ok_iff.1 returned
  obtain ⟨-, there, same⟩ := materialize_loaded loaded
  rw [place, ← same]
  exact List.getElem?_idxOf there

/-- An operation adds images at most, and at the end. -/
theorem perform_images (r : Recording) (operation : Recording.Operation) :
    r.images <+: (r.perform operation).images := by
  cases operation with
  | create | assign | register => exact List.prefix_rfl
  | materialize descriptor => exact (r.materialize_extends descriptor).images

theorem perform_failing (r : Recording) (operation : Recording.Operation) :
    (r.perform operation).failing = r.failing := by
  cases operation with
  | create | assign | register => rfl
  | materialize descriptor => exact r.materialize_failing_eq descriptor

namespace ImagesShared

/-- A descriptor is in one place only. -/
theorem getElem?_unique (h : r.ImagesShared) {i j : Nat} (hi : r.images[i]? = some descriptor)
    (hj : r.images[j]? = some descriptor) : i = j := by
  obtain ⟨lt, here⟩ := List.getElem?_eq_some_iff.1 hi
  obtain ⟨lt', there⟩ := List.getElem?_eq_some_iff.1 hj
  exact (List.Nodup.getElem_inj_iff h.distinct).1 (here.trans there.symm)

theorem materialize (h : r.ImagesShared) (descriptor : ImageDescriptor) :
    (r.materialize descriptor).2.ImagesShared := by
  cases lost : r.failing.contains descriptor.name with
  | true =>
    rw [materialize_failing lost]
    exact h
  | false =>
    by_cases there : descriptor ∈ r.images
    · have same : (r.materialize descriptor).2.images = r.images := by
        rw [materialize_images lost, if_pos there]
      constructor
      · rw [same]
        exact h.distinct
      · rw [same, materialize_failing_eq]
        exact h.loaded
    · have added : (r.materialize descriptor).2.images = r.images ++ [descriptor] := by
        rw [materialize_images lost, if_neg there]
      constructor
      · rw [added]
        refine h.distinct.append (List.nodup_singleton _) fun other old new => ?_
        rw [List.mem_singleton.1 new] at old
        exact there old
      · rw [added, materialize_failing_eq]
        intro other hm
        rcases List.mem_append.1 hm with old | new
        · exact h.loaded other old
        · rw [List.mem_singleton.1 new]
          exact lost

/-- One operation keeps images shared. -/
theorem perform (h : r.ImagesShared) (operation : Recording.Operation) :
    (r.perform operation).ImagesShared := by
  cases operation with
  | create | assign | register => exact ⟨h.distinct, h.loaded⟩
  | materialize descriptor => exact h.materialize descriptor

end ImagesShared

/-! ## Many operations -/

theorem performAll_images (r : Recording) (operations : List Recording.Operation) :
    r.images <+: (r.performAll operations).images := by
  induction operations generalizing r with
  | nil => exact List.prefix_rfl
  | cons operation rest ih => exact (r.perform_images operation).trans (ih _)

theorem performAll_failing (r : Recording) (operations : List Recording.Operation) :
    (r.performAll operations).failing = r.failing := by
  induction operations generalizing r with
  | nil => rfl
  | cons operation rest ih => exact (ih _).trans (r.perform_failing operation)

theorem ImagesShared.performAll (h : r.ImagesShared) (operations : List Recording.Operation) :
    (r.performAll operations).ImagesShared := by
  induction operations generalizing r with
  | nil => exact h
  | cons operation rest ih => exact ih (h.perform operation)

end Recording

/-! ## Sessions -/

namespace Session

variable (session : Session)

theorem images_start : session.start.images = [] := by
  suffices ∀ (names : List String) (r : Recording),
      (names.foldl Recording.withFailingImage r).images = r.images from this _ _
  intro names
  induction names with
  | nil => exact fun _ => rfl
  | cons name rest ih => exact fun r => ih (r.withFailingImage name)

/-- The images that cannot be loaded are the named ones. -/
theorem failing_start (name : String) :
    session.start.failing.contains name = true ↔ name ∈ session.failing := by
  suffices ∀ (names : List String) (r : Recording),
      (names.foldl Recording.withFailingImage r).failing.contains name = true ↔
        name ∈ names ∨ r.failing.contains name = true by
    rw [start, this]
    exact or_iff_left fun h => by cases h
  intro names
  induction names with
  | nil => simp
  | cons first rest ih =>
    intro r
    rw [List.foldl_cons, ih, List.mem_cons]
    have first : (r.withFailingImage first).failing.contains name = true ↔
        name = first ∨ r.failing.contains name = true := by
      unfold Recording.withFailingImage SortedMap.contains
      rw [SortedMap.get?_insert]
      by_cases same : name = first
      · simp [same]
      · simp [same]
    rw [first]
    tauto

theorem failing_after (count : Nat) : (session.after count).failing = session.start.failing :=
  Recording.performAll_failing _ _

/-- Later there are the same images and maybe more. -/
theorem images_after {count later : Nat} (h : count ≤ later) :
    (session.after count).images <+: (session.after later).images := by
  obtain ⟨rest, hr⟩ := List.take_prefix_take_left (l := session.operations) h
  rw [after, after, ← hr, Recording.performAll_append]
  exact Recording.performAll_images _ _

theorem imagesShared_after (count : Nat) : (session.after count).ImagesShared := by
  refine Recording.ImagesShared.performAll ⟨?_, ?_⟩ _
  · rw [images_start]
    exact .nil
  · rw [images_start]
    exact fun _ hm => (by cases hm)

/-- After so many operations an image was asked for, and this handle was returned. -/
def Returned (count : Nat) (descriptor : ImageDescriptor) (handle : ImageHandle) : Prop :=
  session.operations[count]? = some (.materialize descriptor) ∧
    ((session.after count).materialize descriptor).1 = .ok handle

instance (count : Nat) (descriptor : ImageDescriptor) (handle : ImageHandle) :
    Decidable (session.Returned count descriptor handle) := inferInstanceAs (Decidable (_ ∧ _))

variable {session}

/-- What was returned stands for the same image ever after. -/
theorem Returned.getElem? {count later : Nat} {descriptor : ImageDescriptor} {handle : ImageHandle}
    (h : session.Returned count descriptor handle) (later_gt : count < later) :
    (session.after later).images[handle.index]? = some descriptor := by
  obtain ⟨asked, returned⟩ := h
  have next : (session.after (count + 1)).images[handle.index]? = some descriptor := by
    rw [after_succ session asked]
    exact Recording.getElem?_of_materialize returned
  exact prefix_getElem? (session.images_after later_gt) next

/-- Handles that were returned at any two times are equal exactly if the descriptors are. -/
theorem Returned.eq_iff {count other : Nat} {descriptor descriptor' : ImageDescriptor}
    {handle handle' : ImageHandle} (h : session.Returned count descriptor handle)
    (h' : session.Returned other descriptor' handle') : handle = handle' ↔ descriptor = descriptor' := by
  -- Once both were asked for, both are in the list, each in the place of its handle.
  have here := h.getElem? (Nat.lt_succ_of_le (Nat.le_max_left count other))
  have there := h'.getElem? (Nat.lt_succ_of_le (Nat.le_max_right count other))
  constructor
  · rintro rfl
    exact Option.some.inj (here.symm.trans there)
  · rintro rfl
    have same := (session.imagesShared_after _).getElem?_unique here there
    cases handle
    cases handle'
    exact congrArg _ same

/-- Images are shared exactly when they are identical. Whatever operations are done and materials are
    lowered, from an empty recording in which some images cannot be loaded: at no time is an image there
    twice, or one that cannot be loaded. Asking for a descriptor succeeds exactly if its image can be
    loaded, with the one handle where it is then, and changes nothing otherwise. At any two times the
    handles that are returned are equal exactly if the descriptors are, and every handle that was ever
    returned stands for the same descriptor from then on until the end. -/
theorem images_shared (session : Session) :
    session.finish = session.after session.operations.length ∧
    (∀ count, (session.after count).images.Nodup ∧
      ∀ descriptor ∈ (session.after count).images, descriptor.name ∉ session.failing) ∧
    (∀ count descriptor,
      ((∃ handle, ((session.after count).materialize descriptor).1 = .ok handle) ↔
        descriptor.name ∉ session.failing) ∧
      (∀ handle, ((session.after count).materialize descriptor).1 = .ok handle →
        ∀ index, ((session.after count).materialize descriptor).2.images[index]? = some descriptor ↔
          index = handle.index) ∧
      ∀ error, ((session.after count).materialize descriptor).1 = .error error →
        error = .notFound descriptor.name ∧
          ((session.after count).materialize descriptor).2 = session.after count) ∧
    (∀ count other descriptor descriptor' handle handle', session.Returned count descriptor handle →
      session.Returned other descriptor' handle' → (handle = handle' ↔ descriptor = descriptor')) ∧
    ∀ count descriptor handle, session.Returned count descriptor handle →
      (∀ later, count < later →
        (session.after later).images[handle.index]? = some descriptor) ∧
      session.finish.images[handle.index]? = some descriptor := by
  have lost : ∀ count name,
      (session.after count).failing.contains name = true ↔ name ∈ session.failing := fun count name => by
    rw [failing_after, failing_start]
  have loaded : ∀ count name,
      (session.after count).failing.contains name = false ↔ name ∉ session.failing := fun count name => by
    rw [← lost count, Bool.not_eq_true]
  refine ⟨session.finish_eq, fun count => ⟨?_, fun descriptor hm => ?_⟩, fun count descriptor =>
    ⟨?_, fun handle returned index => ?_, fun error => Recording.materialize_of_error⟩,
    fun _ _ _ _ _ _ => Returned.eq_iff, fun count descriptor handle h => ⟨fun later => h.getElem?, ?_⟩⟩
  · exact (session.imagesShared_after count).distinct
  · exact (loaded count _).1 ((session.imagesShared_after count).loaded descriptor hm)
  · rw [← loaded count]
    constructor
    · rintro ⟨handle, returned⟩
      exact (Recording.materialize_eq_ok_iff.1 returned).1
    · exact fun h => ⟨_, (Recording.materialize_loaded h).1⟩
  · have here := Recording.getElem?_of_materialize returned
    have shared := (session.imagesShared_after count).materialize descriptor
    constructor
    · exact fun there => shared.getElem?_unique there here
    · rintro rfl
      exact here
  · rw [session.finish_eq]
    exact h.getElem? (List.getElem?_eq_some_iff.1 h.1).1

/-- A material shows an image that is asked for directly as well, before with another border, and later
    with the same one. -/
def planks : Session where
  failing := ["stone.png"]
  moves :=
    [.perform (.materialize ⟨"wood.png", .clampToEdge⟩),
      .lower ((Document.textured (some (Document.passage, "Output"))).setting .builtin) false,
      .perform (.materialize ⟨"wood.png", .repeat⟩), .perform (.materialize ⟨"stone.png", .repeat⟩)]

/-- The material is given an image of its own, which is returned again later on. -/
theorem images_shared_planks :
    planks.Returned 0 ⟨"wood.png", .clampToEdge⟩ ⟨0⟩ ∧ planks.Returned 1 ⟨"wood.png", .repeat⟩ ⟨1⟩ ∧
      planks.Returned 4 ⟨"wood.png", .repeat⟩ ⟨1⟩ ∧
      planks.finish.images[1]? = some ⟨"wood.png", .repeat⟩ ∧
      ¬ ∃ handle, ((planks.after 5).materialize ⟨"stone.png", .repeat⟩).1 = .ok handle := by
  obtain ⟨-, -, asked, -, stays⟩ := planks.images_shared
  have within : planks.Returned 1 ⟨"wood.png", .repeat⟩ ⟨1⟩ := by decide +kernel
  have missing : ¬ ∃ handle, ((planks.after 5).materialize ⟨"stone.png", .repeat⟩).1 = .ok handle := by
    rw [(asked 5 ⟨"stone.png", .repeat⟩).1]
    decide
  exact ⟨by decide +kernel, within, by decide +kernel, (stays 1 _ _ within).2, missing⟩

end Session

end MaterialLowering

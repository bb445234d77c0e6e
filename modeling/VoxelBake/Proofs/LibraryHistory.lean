/-
**What can be seen of a library at any time.**

Packs are added, tables are edited, files change where they lie, and a library is cleared, built and
built anew, in any order and with any outcome.  A build first forgets what was there and writes what
it made at its very end, so nothing of a build that failed can be seen: a library is either as the
last build left it, or it is as if nothing had ever been built.

Main definitions:

* `Library.Operation`, `Library.step`, `Library.run` — what can be done with a library, the outcome
  and the library afterwards, and a whole history;
* `Library.Operation.resets`, `Library.Operation.builds` — the operations that forget what was
  built, and those of them that build;
* `Library.Unbuilt` — nothing is built.

Main results:

* `Library.step_of_not_resets`, `Library.step_of_resets` — **what one operation does** to what is
  built;
* `Library.config_run` — no history changes what was chosen;
* `Library.unbuilt_run` — a library that is not loaded has nothing built, after any history;
* `Library.loaded_run_iff` — which histories leave a library loaded;
* `Library.nothing_partial` — **no partial result is ever visible**.
-/
import VoxelBake.Proofs.BuildPhases

set_option relaxedAutoImplicit false
set_option autoImplicit false

namespace VoxelBake.Library

/-! ### Operations -/

/-- What can be done with a library: a pack is added, the tables of files are edited, the files
change where they lie, what was built is forgotten, and everything is built, from the packs that are
there or from new ones.  Each build hands its atlas over to an uploader and a queue of its own, in
any state. -/
inductive Operation : Type 1
  | addPack (d : PackDirectory)
  | edit (change : FileTables → FileTables)
  | touch (source : AssetSource)
  | clear
  | build {σ : Type} (palette : BlockPalette) (items : ItemPalette)
      (uploader : Uploader σ (Atlas Float32)) (h : Handoff σ (Atlas Float32))
  | rebuild {σ : Type} (packs : List PackDirectory) (palette : BlockPalette) (items : ItemPalette)
      (uploader : Uploader σ (Atlas Float32)) (h : Handoff σ (Atlas Float32))

namespace Operation

/-- Whether an operation builds everything, whatever comes of it. -/
def builds : Operation → Bool
  | build .. => true
  | rebuild .. => true
  | _ => false

/-- Whether an operation forgets what was built before. -/
def resets : Operation → Bool
  | clear => true
  | op => op.builds

theorem resets_of_builds {op : Operation} (h : op.builds = true) : op.resets = true := by
  cases op with
  | clear => rfl
  | _ => exact h

end Operation

/-- The outcome of an operation, and the library afterwards. -/
def step (l : Library) : Operation → Except Failure Unit × Library
  | .addPack d =>
      match l.addPack d with
      | .ok l' => (.ok (), l')
      | .error fault => (.error fault, l)
  | .edit change => (.ok (), { l with files := change l.files })
  | .touch source => (.ok (), { l with source := source })
  | .clear => (.ok (), l.clear)
  | .build palette items uploader h =>
      let out := l.build palette items uploader h
      (out.1, out.2.1)
  | .rebuild packs palette items uploader h =>
      let out := l.rebuild packs palette items uploader h
      (out.1, out.2.1)

/-- The library after some operations, whatever their outcomes. -/
def run (l : Library) (ops : List Operation) : Library := ops.foldl (fun l op => (l.step op).2) l

theorem run_concat (l : Library) (ops : List Operation) (op : Operation) :
    l.run (ops ++ [op]) = ((l.run ops).step op).2 := by
  rw [run, List.foldl_append]
  rfl

/-! ### Libraries of which nothing is built -/

/-- Nothing is built: no states and items, no geometry, the empty atlas and no colour maps. -/
structure Unbuilt (l : Library) : Prop where
  states : l.states = ∅
  items : l.items = ∅
  atlas : l.atlas = Atlas.empty
  colormaps : l.colormaps = Colormaps.none
  geometry : l.blockCaches.geometry = ∅

theorem unbuilt_create (config : LibraryConfig) (source : AssetSource) :
    (create config source).Unbuilt := ⟨rfl, rfl, rfl, rfl, rfl⟩

theorem unbuilt_clear (l : Library) : l.clear.Unbuilt := ⟨rfl, rfl, rfl, rfl, rfl⟩

theorem unbuilt_prepared (l : Library) : l.prepared.Unbuilt := ⟨rfl, rfl, rfl, rfl, rfl⟩

theorem Unbuilt.geometryCount {l : Library} (h : l.Unbuilt) : l.geometryCount = 0 := by
  rw [Library.geometryCount, h.geometry]
  rfl

/-- Nothing but the tables and the files themselves differs. -/
def SameBuilt (l l' : Library) : Prop :=
  ∃ source files, l' = { l with source := source, files := files }

namespace SameBuilt

variable {l l' l'' : Library}

theorem refl (l : Library) : l.SameBuilt l := ⟨l.source, l.files, rfl⟩

theorem trans (h : l.SameBuilt l') (h' : l'.SameBuilt l'') : l.SameBuilt l'' := by
  obtain ⟨source, files, rfl⟩ := h
  obtain ⟨source', files', rfl⟩ := h'
  exact ⟨source', files', rfl⟩

theorem loaded (h : l.SameBuilt l') : l'.loaded = l.loaded := by
  obtain ⟨source, files, rfl⟩ := h
  rfl

theorem config (h : l.SameBuilt l') : l'.config = l.config := by
  obtain ⟨source, files, rfl⟩ := h
  rfl

theorem unbuilt (h : l.SameBuilt l') (hl : l.Unbuilt) : l'.Unbuilt := by
  obtain ⟨source, files, rfl⟩ := h
  exact ⟨hl.states, hl.items, hl.atlas, hl.colormaps, hl.geometry⟩

end SameBuilt

/-! ### One operation -/

section Steps

variable {l : Library}

theorem addPack_sameBuilt {d : PackDirectory} {l' : Library} (h : l.addPack d = .ok l') :
    l.SameBuilt l' := by
  rw [addPack] at h
  split at h
  · rename_i files _
    cases h
    exact ⟨l.source, files, rfl⟩
  · cases h

theorem addPacks_sameBuilt (packs : List PackDirectory) : l.SameBuilt (l.addPacks packs).2 := by
  induction packs generalizing l with
  | nil => exact SameBuilt.refl l
  | cons d packs ih =>
      cases hadd : l.addPack d with
      | error fault =>
          have hstep : l.addPacks (d :: packs) = (.error fault, l) := by simp only [addPacks, hadd]
          rw [hstep]
          exact SameBuilt.refl l
      | ok l' =>
          have hstep : l.addPacks (d :: packs) = l'.addPacks packs := by simp only [addPacks, hadd]
          rw [hstep]
          exact (addPack_sameBuilt hadd).trans ih

/-- What a build or a clearing leaves: the library is loaded if it succeeded in building, and
nothing is built if not. -/
structure Settled (builds : Bool) (out : Except Failure Unit × Library) : Prop where
  /-- A library is loaded exactly if it was built with success. -/
  loaded_iff : out.2.loaded = true ↔ builds = true ∧ out.1 = .ok ()
  /-- If it is not loaded, nothing of it is built. -/
  unbuilt : out.2.loaded = false → out.2.Unbuilt

section Building

variable {σ : Type} (palette : BlockPalette) (items : ItemPalette)
  (uploader : Uploader σ (Atlas Float32)) (h : Handoff σ (Atlas Float32))

theorem settled_build (l : Library) : Settled true (l.step (.build palette items uploader h)) := by
  rw [step]
  obtain ⟨fault, -, hbuild⟩ | ⟨atlas, fault, h', -, -, hbuild⟩ | ⟨atlas, h', -, -, hbuild⟩ :=
    l.build_cases palette items uploader h
  · rw [hbuild]
    exact ⟨⟨nofun, nofun⟩, fun _ => unbuilt_prepared l⟩
  · rw [hbuild]
    exact ⟨⟨nofun, nofun⟩, fun _ => unbuilt_prepared l⟩
  · rw [hbuild]
    exact ⟨⟨fun _ => ⟨rfl, rfl⟩, fun _ => rfl⟩, nofun⟩

/-- Building from new packs fails with nothing built, or it is a build from these packs. -/
theorem rebuild_cases (l : Library) (packs : List PackDirectory) :
    ∃ l', SameBuilt { l.clear with files := FileTables.empty } l' ∧
      ((∃ fault, l.step (.rebuild packs palette items uploader h) = (.error fault, l')) ∨
        l.step (.rebuild packs palette items uploader h)
          = l'.step (.build palette items uploader h)) := by
  have hpacks := addPacks_sameBuilt (l := { l.clear with files := FileTables.empty }) packs
  obtain ⟨⟨outcome, l'⟩, hadd⟩ :
      ∃ out, addPacks { l.clear with files := FileTables.empty } packs = out := ⟨_, rfl⟩
  rw [hadd] at hpacks
  refine ⟨l', hpacks, ?_⟩
  cases outcome with
  | error fault => exact Or.inl ⟨fault, by simp only [step, rebuild, hadd]⟩
  | ok u => exact Or.inr (by simp only [step, rebuild, hadd])

theorem settled_rebuild (l : Library) (packs : List PackDirectory) :
    Settled true (l.step (.rebuild packs palette items uploader h)) := by
  obtain ⟨l', hpacks, ⟨fault, hstep⟩ | hstep⟩ := rebuild_cases palette items uploader h l packs
  · have hloaded : l'.loaded = false := hpacks.loaded
    rw [hstep]
    refine ⟨⟨fun hl => ?_, nofun⟩, fun _ => hpacks.unbuilt ⟨rfl, rfl, rfl, rfl, rfl⟩⟩
    rw [hloaded] at hl
    cases hl
  · rw [hstep]
    exact settled_build palette items uploader h l'

end Building

/-- **An operation that does not reset keeps what is built.** -/
theorem step_of_not_resets {op : Operation} (h : op.resets = false) :
    l.SameBuilt (l.step op).2 := by
  cases op with
  | addPack d =>
      cases hadd : l.addPack d with
      | ok l' =>
          have hstep : l.step (.addPack d) = (.ok (), l') := by simp only [step, hadd]
          rw [hstep]
          exact addPack_sameBuilt hadd
      | error fault =>
          have hstep : l.step (.addPack d) = (.error fault, l) := by simp only [step, hadd]
          rw [hstep]
          exact SameBuilt.refl l
  | edit change => exact ⟨l.source, change l.files, rfl⟩
  | touch source => exact ⟨source, l.files, rfl⟩
  | clear => cases h
  | build => cases h
  | rebuild => cases h

/-- **An operation that resets leaves a library that is loaded or has nothing built**, the former
exactly if it built with success. -/
theorem step_of_resets {op : Operation} (h : op.resets = true) :
    Settled op.builds (l.step op) := by
  cases op with
  | addPack d => cases h
  | edit change => cases h
  | touch source => cases h
  | clear => exact ⟨⟨nofun, nofun⟩, fun _ => unbuilt_clear l⟩
  | build palette items uploader queue => exact settled_build palette items uploader queue l
  | rebuild packs palette items uploader queue =>
      exact settled_rebuild palette items uploader queue l packs

theorem config_step (op : Operation) : (l.step op).2.config = l.config := by
  cases op with
  | clear => rfl
  | build palette items uploader queue => exact (build_keeps l).1
  | rebuild packs palette items uploader queue =>
      obtain ⟨l', hpacks, ⟨fault, hstep⟩ | hstep⟩ :=
        rebuild_cases palette items uploader queue l packs
      · rw [hstep]
        exact hpacks.config
      · rw [hstep]
        exact (build_keeps l').1.trans hpacks.config
  | _ => exact (step_of_not_resets rfl).config

end Steps

/-! ### Histories -/

section Histories

variable (config : LibraryConfig) (source : AssetSource)

/-- No history changes what was chosen. -/
theorem config_run (ops : List Operation) : ((create config source).run ops).config = config := by
  induction ops using List.reverseRecOn with
  | nil => rfl
  | append_singleton ops op ih => rw [run_concat, config_step, ih]

/-- **A library that is not loaded has nothing built**, whatever happened before. -/
theorem unbuilt_run (ops : List Operation) (h : ((create config source).run ops).loaded = false) :
    ((create config source).run ops).Unbuilt := by
  -- the last operation leaves a library with nothing built, or it keeps the one before it
  induction ops using List.reverseRecOn with
  | nil => exact unbuilt_create config source
  | append_singleton ops op ih =>
      rw [run_concat] at h ⊢
      cases hop : op.resets with
      | true => exact (step_of_resets hop).unbuilt h
      | false =>
          have hsame := step_of_not_resets (l := (create config source).run ops) hop
          rw [hsame.loaded] at h
          exact hsame.unbuilt (ih h)

/-- The last reset of a history was a build that succeeded. -/
def EndsBuilt (l : Library) (ops : List Operation) : Prop :=
  ∃ before op after, ops = before ++ op :: after ∧ op.builds = true ∧
    ((l.run before).step op).1 = .ok () ∧ ∀ o ∈ after, o.resets = false

theorem endsBuilt_concat_of_resets {l : Library} {ops : List Operation} {op : Operation}
    (hop : op.resets = true) :
    l.EndsBuilt (ops ++ [op]) ↔ op.builds = true ∧ ((l.run ops).step op).1 = .ok () := by
  -- an operation after the last reset would end the history, and that is a reset
  constructor
  · rintro ⟨before, op', after, hsplit, hbuilds, hok, hafter⟩
    cases after using List.reverseRecOn with
    | nil =>
        obtain ⟨rfl, heq⟩ := List.append_inj' hsplit rfl
        cases heq
        exact ⟨hbuilds, hok⟩
    | append_singleton after last =>
        rw [← List.cons_append, ← List.append_assoc] at hsplit
        obtain ⟨-, heq⟩ := List.append_inj' hsplit rfl
        cases heq
        have hlast := hafter op (List.mem_append_right _ (List.mem_singleton_self op))
        rw [hop] at hlast
        cases hlast
  · rintro ⟨hbuilds, hok⟩
    exact ⟨ops, op, [], rfl, hbuilds, hok, nofun⟩

theorem endsBuilt_concat_of_not_resets {l : Library} {ops : List Operation} {op : Operation}
    (hop : op.resets = false) : l.EndsBuilt (ops ++ [op]) ↔ l.EndsBuilt ops := by
  constructor
  · rintro ⟨before, op', after, hsplit, hbuilds, hok, hafter⟩
    cases after using List.reverseRecOn with
    | nil =>
        obtain ⟨-, heq⟩ := List.append_inj' hsplit rfl
        cases heq
        rw [Operation.resets_of_builds hbuilds] at hop
        cases hop
    | append_singleton after last =>
        rw [← List.cons_append, ← List.append_assoc] at hsplit
        obtain ⟨rfl, -⟩ := List.append_inj' hsplit rfl
        exact ⟨before, op', after, rfl, hbuilds, hok,
          fun o ho => hafter o (List.mem_append_left _ ho)⟩
  · rintro ⟨before, op', after, rfl, hbuilds, hok, hafter⟩
    refine ⟨before, op', after ++ [op], by simp, hbuilds, hok, fun o ho => ?_⟩
    rcases List.mem_append.1 ho with ho | ho
    · exact hafter o ho
    · rw [List.mem_singleton.1 ho]
      exact hop

/-- **A library is loaded exactly if the last reset was a build that succeeded.** -/
theorem loaded_run_iff (ops : List Operation) :
    ((create config source).run ops).loaded = true ↔ (create config source).EndsBuilt ops := by
  induction ops using List.reverseRecOn with
  | nil =>
      refine ⟨nofun, ?_⟩
      rintro ⟨before, op, after, hsplit, -⟩
      exact absurd hsplit (by simp)
  | append_singleton ops op ih =>
      rw [run_concat]
      cases hop : op.resets with
      | true => rw [endsBuilt_concat_of_resets hop, (step_of_resets hop).loaded_iff]
      | false => rw [endsBuilt_concat_of_not_resets hop, (step_of_not_resets hop).loaded, ih]

/-! ### What can be seen -/

theorem ifLoaded_of_not_loaded {β : Type} {l : Library} (h : l.loaded = false) (b : β) :
    l.ifLoaded b = .error .notLoaded := by
  simp [ifLoaded, h]

/-- **No partial result is ever visible.**  After any history a library is loaded exactly if the
last of its builds and clearings was a build that succeeded.  If it is not, every lookup says so,
there are no states, items and geometry, the atlas is the empty one and there are no colour
maps. -/
theorem nothing_partial (ops : List Operation) :
    (((create config source).run ops).loaded = true ↔ (create config source).EndsBuilt ops) ∧
    (((create config source).run ops).loaded = false →
      ((∀ state, ((create config source).run ops).stateModel state = .error .notLoaded) ∧
        (∀ item, ((create config source).run ops).itemModel item = .error .notLoaded) ∧
        ((create config source).run ops).stateModels = .error .notLoaded ∧
        ((create config source).run ops).itemModels = .error .notLoaded ∧
        ((create config source).run ops).builtAtlas = .error .notLoaded ∧
        ((create config source).run ops).builtColormaps = .error .notLoaded) ∧
      ((create config source).run ops).states = ∅ ∧
      ((create config source).run ops).items = ∅ ∧
      ((create config source).run ops).atlas = Atlas.empty ∧
      ((create config source).run ops).colormaps = Colormaps.none ∧
      ((create config source).run ops).geometryCount = 0) := by
  refine ⟨loaded_run_iff config source ops, fun hloaded => ?_⟩
  have hunbuilt := unbuilt_run config source ops hloaded
  have hlookup := fun {β : Type} (b : β) => ifLoaded_of_not_loaded hloaded b
  exact ⟨⟨fun _ => hlookup _, fun _ => hlookup _, hlookup _, hlookup _, hlookup _, hlookup _⟩,
    hunbuilt.states, hunbuilt.items, hunbuilt.atlas, hunbuilt.colormaps, hunbuilt.geometryCount⟩

end Histories

/-- The tables of the quarry are entered, and everything is built. -/
def quarryHistory : List Operation :=
  [.edit fun _ => quarry.files, .build quarryBlocks quarryItems acceptAll (Handoff.start ())]

/-- Everything is built anew from a directory that is no pack. -/
def lostPack : Operation :=
  .rebuild [⟨"nowhere", []⟩] quarryBlocks quarryItems acceptAll (Handoff.start ())

theorem snd_step_build (l : Library) {σ : Type} (palette : BlockPalette) (items : ItemPalette)
    (uploader : Uploader σ (Atlas Float32)) (h : Handoff σ (Atlas Float32)) :
    (l.step (.build palette items uploader h)).2 = (l.build palette items uploader h).2.1 := rfl

theorem run_quarryHistory : (create quarry.config quarry.source).run quarryHistory
    = (quarry.build quarryBlocks quarryItems acceptAll (Handoff.start ())).2.1 := by
  have hstart : (create quarry.config quarry.source).run [.edit fun _ => quarry.files] = quarry :=
    rfl
  have hrun : (create quarry.config quarry.source).run quarryHistory
      = (((create quarry.config quarry.source).run [.edit fun _ => quarry.files]).step
          (.build quarryBlocks quarryItems acceptAll (Handoff.start ()))).2 :=
    run_concat _ [_] _
  rw [hrun, hstart, snd_step_build]

theorem loaded_quarryHistory :
    ((create quarry.config quarry.source).run quarryHistory).loaded = true := by
  obtain ⟨built, h', hbuild⟩ := exists_quarry_build
  rw [run_quarryHistory, hbuild]
  obtain ⟨atlas, -, rfl⟩ := build_ok hbuild
  rfl

/-- The first build of the quarry loads it, and the failure to gather the new pack leaves nothing
of it. -/
theorem nothing_partial_quarry :
    ((create quarry.config quarry.source).run quarryHistory).loaded = true ∧
    ((create quarry.config quarry.source).run (quarryHistory ++ [lostPack])).loaded = false ∧
    ((create quarry.config quarry.source).run (quarryHistory ++ [lostPack])).itemModel 1
      = .error .notLoaded ∧
    ((create quarry.config quarry.source).run (quarryHistory ++ [lostPack])).atlas
      = Atlas.empty := by
  have hlost : ∀ l : Library, (l.step lostPack).2.loaded = false := fun l => rfl
  have hunloaded :
      ((create quarry.config quarry.source).run (quarryHistory ++ [lostPack])).loaded = false := by
    rw [run_concat]
    exact hlost _
  obtain ⟨⟨-, hitem, -⟩, -, -, hatlas, -⟩ :=
    (nothing_partial quarry.config quarry.source (quarryHistory ++ [lostPack])).2 hunloaded
  exact ⟨loaded_quarryHistory, hunloaded, hitem 1, hatlas⟩

end VoxelBake.Library

/-
**Histories of a queue of uploads.**

`Proofs/HandoffSteps.lean` says what can happen, one event at a time.  Here whole histories are
read, from the first event on: which tasks were accepted, which of them were uploaded, and with
which outcome.  A history explains everything that can be seen afterwards, on the side of the owner
as well as on the side of those who hold tickets.

Main definitions:

* `Uploader.outcomes`, `Uploader.after` — what an owner does who uploads one thing after another;
* `Handoff.submissions`, `Handoff.uploads`, `Handoff.Departed` — a history, seen by the tasks and
  by the owner;
* `Handoff.Account`, `Handoff.Fate` — how a history explains the queue, and the reply of a ticket.

Main results:

* `Handoff.Steps.account` — **a history explains the queue it leads to**;
* `Handoff.Steps.fate` — **a history explains every reply it leads to**;
* `Handoff.Steps.ownerless` — nothing is accepted or uploaded once the owner is gone.
-/
import Mathlib.Data.List.Induction
import Mathlib.Data.List.Nodup
import VoxelBake.Proofs.HandoffSteps

set_option relaxedAutoImplicit false
set_option autoImplicit false

namespace VoxelBake

variable {σ β : Type}

namespace Uploader

/-- The outcomes of uploading one thing after another. -/
def outcomes (uploader : Uploader σ β) : σ → List β → List Outcome
  | _, [] => []
  | owner, atlas :: rest =>
      (uploader owner atlas).1 :: outcomes uploader (uploader owner atlas).2 rest

/-- The state of an owner that uploaded one thing after another. -/
def after (uploader : Uploader σ β) (owner : σ) (atlases : List β) : σ :=
  atlases.foldl (fun owner atlas => (uploader owner atlas).2) owner

theorem after_concat (uploader : Uploader σ β) (owner : σ) (atlases : List β) (atlas : β) :
    uploader.after owner (atlases ++ [atlas]) =
      (uploader (uploader.after owner atlases) atlas).2 := by
  simp [after]

theorem outcomes_concat (uploader : Uploader σ β) (owner : σ) (atlases : List β) (atlas : β) :
    uploader.outcomes owner (atlases ++ [atlas]) =
      uploader.outcomes owner atlases ++ [(uploader (uploader.after owner atlases) atlas).1] := by
  induction atlases generalizing owner with
  | nil => rfl
  | cons first rest ih => exact congrArg (_ :: ·) (ih (uploader owner first).2)

end Uploader

namespace Handoff

/-! ### Histories -/

/-- The task that an event puts into the queue. -/
def Event.submitted? : Event σ β → Option (Nat × β)
  | submit atlas (.ok ticket) => some (ticket, atlas)
  | _ => none

/-- The upload that an event is. -/
def Event.uploaded? : Event σ β → Option ((Nat × β) × Outcome)
  | upload ticket atlas outcome => some ((ticket, atlas), outcome)
  | _ => none

/-- The tasks that were accepted, oldest first. -/
def submissions (es : List (Event σ β)) : List (Nat × β) := es.filterMap Event.submitted?

/-- The uploads that were run, oldest first, with their outcomes. -/
def uploads (es : List (Event σ β)) : List ((Nat × β) × Outcome) := es.filterMap Event.uploaded?

/-- The owner is gone. -/
def Departed (es : List (Event σ β)) : Prop := .dropOwner ∈ es ∨ ∃ owner, .endRun owner ∈ es

variable {uploader : Uploader σ β} {first : σ} {m m' : Moment σ β} {e : Event σ β}
  {es : List (Event σ β)} {t : Nat} {o : Outcome}

theorem submissions_append (es fs : List (Event σ β)) :
    submissions (es ++ fs) = submissions es ++ submissions fs := List.filterMap_append

theorem uploads_append (es fs : List (Event σ β)) :
    uploads (es ++ fs) = uploads es ++ uploads fs := List.filterMap_append

theorem submissions_concat_of_none (es : List (Event σ β)) (h : e.submitted? = none) :
    submissions (es ++ [e]) = submissions es := by
  simp [submissions, h]

theorem uploads_concat_of_none (es : List (Event σ β)) (h : e.uploaded? = none) :
    uploads (es ++ [e]) = uploads es := by
  simp [uploads, h]

theorem mem_submissions {atlas : β} :
    (t, atlas) ∈ submissions es ↔ .submit atlas (.ok t) ∈ es := by
  simp only [submissions, List.mem_filterMap]
  constructor
  · rintro ⟨e, he, htask⟩
    unfold Event.submitted? at htask
    split at htask
    · cases htask
      exact he
    · nomatch htask
  · intro he
    exact ⟨_, he, rfl⟩

theorem mem_uploads {atlas : β} : ((t, atlas), o) ∈ uploads es ↔ .upload t atlas o ∈ es := by
  simp only [uploads, List.mem_filterMap]
  constructor
  · rintro ⟨e, he, hupload⟩
    unfold Event.uploaded? at hupload
    split at hupload
    · cases hupload
      exact he
    · nomatch hupload
  · intro he
    exact ⟨_, he, rfl⟩

theorem Event.Quiet.submitted? (h : e.Quiet) : e.submitted? = none := by
  cases e <;> first | rfl | exact h.elim

theorem Event.Quiet.uploaded? (h : e.Quiet) : e.uploaded? = none := by
  cases e <;> first | rfl | exact h.elim

theorem departed_append (es fs : List (Event σ β)) :
    Departed (es ++ fs) ↔ Departed es ∨ Departed fs := by
  simp only [Departed, List.mem_append, exists_or]
  exact or_or_or_comm

theorem Event.Quiet.not_departed (h : e.Quiet) : ¬ Departed [e] := by
  rintro (hmem | ⟨owner, hmem⟩)
  · rw [← List.mem_singleton.mp hmem] at h
    exact h
  · rw [← List.mem_singleton.mp hmem] at h
    exact h

/-! ### The queue -/

/-- A history that explains the owner, the tasks to be uploaded and the number of tickets. -/
structure Account (uploader : Uploader σ β) (first : σ) (es : List (Event σ β))
    (owner : Option σ) (tasks : List (Nat × β)) (n : Nat) : Prop where
  tickets : (submissions es).map Prod.fst = List.range n
  -- what still waited when the owner was dropped is lost
  flow : ∃ lost, submissions es = (uploads es).map Prod.fst ++ tasks ++ lost ∧
    (lost ≠ [] → .dropOwner ∈ es)
  outcomes : (uploads es).map Prod.snd =
    uploader.outcomes first ((uploads es).map fun u => u.1.2)
  owner_eq : ∀ s, owner = some s → s = uploader.after first ((uploads es).map fun u => u.1.2)
  departed : owner = none ↔ Departed es

namespace Account

variable {owner owner' : Option σ} {tasks tasks' : List (Nat × β)} {n n' : Nat}

theorem start (first : σ) : Account uploader first ([] : List (Event σ β)) (some first) [] 0 where
  tickets := rfl
  flow := ⟨[], rfl, nofun⟩
  outcomes := rfl
  owner_eq := by
    rintro s ⟨⟩
    rfl
  departed := by simp [Departed]

/-- With an owner, nothing was lost. -/
theorem submissions_eq (h : Account uploader first es owner tasks n) (howner : owner ≠ none) :
    submissions es = (uploads es).map Prod.fst ++ tasks := by
  obtain ⟨lost, hflow, hlost⟩ := h.flow
  have hnil : lost = [] := by
    by_contra hne
    exact howner (h.departed.mpr (.inl (hlost hne)))
  rw [hflow, hnil, List.append_nil]

theorem nodup (h : Account uploader first es owner tasks n) :
    ((submissions es).map Prod.fst).Nodup := by
  rw [h.tickets]
  exact List.nodup_range

theorem uploads_prefix (h : Account uploader first es owner tasks n) :
    (uploads es).map Prod.fst <+: submissions es := by
  obtain ⟨lost, hflow, -⟩ := h.flow
  rw [hflow, List.append_assoc]
  exact List.prefix_append _ _

/-- What is still to be uploaded was not uploaded yet. -/
theorem not_uploaded (h : Account uploader first es owner tasks n) (ht : t ∈ tasks.map Prod.fst)
    (atlas : β) (o : Outcome) : .upload t atlas o ∉ es := by
  intro hmem
  obtain ⟨lost, hflow, -⟩ := h.flow
  have hnodup := h.nodup
  rw [hflow, List.map_append, List.map_append, List.append_assoc] at hnodup
  have hdisjoint := List.disjoint_of_nodup_append hnodup
  have hup : t ∈ ((uploads es).map Prod.fst).map Prod.fst := by
    rw [List.map_map]
    exact List.mem_map.mpr ⟨_, mem_uploads.mpr hmem, rfl⟩
  exact hdisjoint hup (List.mem_append_left _ ht)

/-- Events that are no matter of the queue leave the account as it is. -/
theorem same (h : Account uploader first es owner tasks n) (hsubmitted : e.submitted? = none)
    (huploaded : e.uploaded? = none) (hstays : ¬ Departed [e]) :
    Account uploader first (es ++ [e]) owner tasks n := by
  have hsubs := submissions_concat_of_none es hsubmitted
  have hups := uploads_concat_of_none es huploaded
  obtain ⟨lost, hflow, hlost⟩ := h.flow
  refine ⟨?_, ⟨lost, ?_, fun hne => List.mem_append_left _ (hlost hne)⟩, ?_, ?_, ?_⟩
  · rw [hsubs]
    exact h.tickets
  · rw [hsubs, hups]
    exact hflow
  · rw [hups]
    exact h.outcomes
  · rw [hups]
    exact h.owner_eq
  · rw [departed_append, or_iff_left hstays]
    exact h.departed

/-- An owner that goes leaves the account as it is, but for what it did not upload. -/
theorem leave (h : Account uploader first es owner tasks n) (hsubmitted : e.submitted? = none)
    (huploaded : e.uploaded? = none) (hdeparted : Departed (es ++ [e]))
    (hlost : tasks ≠ [] → .dropOwner ∈ es ++ [e]) :
    Account uploader first (es ++ [e]) none [] n := by
  have hsubs := submissions_concat_of_none es hsubmitted
  have hups := uploads_concat_of_none es huploaded
  obtain ⟨lost, hflow, hlost'⟩ := h.flow
  refine ⟨?_, ⟨tasks ++ lost, ?_, fun hne => ?_⟩, ?_, nofun, iff_of_true rfl hdeparted⟩
  · rw [hsubs]
    exact h.tickets
  · rw [hsubs, hups, hflow, List.append_nil, List.append_assoc]
  · by_cases htasks : tasks = []
    · rw [htasks, List.nil_append] at hne
      exact List.mem_append_left _ (hlost' hne)
    · exact hlost htasks
  · rw [hups]
    exact h.outcomes

theorem step (h : Account uploader first es owner tasks n)
    (hflow : Flow uploader owner tasks n e owner' tasks' n') :
    Account uploader first (es ++ [e]) owner' tasks' n' := by
  cases hflow with
  | quiet hquiet => exact h.same hquiet.submitted? hquiet.uploaded? hquiet.not_departed
  | refused atlas => exact h.same rfl rfl (by simp [Departed])
  | @finished owner _ =>
      exact h.leave rfl rfl (.inr ⟨owner, by simp⟩) (fun hne => absurd rfl hne)
  | dropped => exact h.leave rfl rfl (.inl (by simp)) (fun _ => by simp)
  | @accepted owner tasks n atlas =>
      have hsubs : submissions (es ++ [.submit atlas (.ok n)]) = submissions es ++ [(n, atlas)] :=
        submissions_append _ _
      have hups : uploads (es ++ [.submit atlas (.ok n)]) = uploads es :=
        uploads_concat_of_none es rfl
      have hall := h.submissions_eq nofun
      refine ⟨?_, ⟨[], ?_, nofun⟩, ?_, ?_, ?_⟩
      · rw [hsubs, List.map_append, h.tickets, List.range_succ]
        rfl
      · rw [hsubs, hups, hall, List.append_nil, List.append_assoc]
      · rw [hups]
        exact h.outcomes
      · rw [hups]
        exact h.owner_eq
      · rw [departed_append, or_iff_left (by simp [Departed])]
        exact h.departed
  | @uploaded owner tasks n ticket atlas =>
      have hsubs : submissions (es ++ [.upload ticket atlas (uploader owner atlas).1]) =
          submissions es := submissions_concat_of_none es rfl
      have hups : uploads (es ++ [.upload ticket atlas (uploader owner atlas).1]) =
          uploads es ++ [((ticket, atlas), (uploader owner atlas).1)] := uploads_append _ _
      have howner : owner = _ := h.owner_eq owner rfl
      have hall := h.submissions_eq nofun
      refine ⟨?_, ⟨[], ?_, nofun⟩, ?_, ?_, ?_⟩
      · rw [hsubs]
        exact h.tickets
      · rw [hsubs, hups, hall]
        simp
      · rw [hups, List.map_append, List.map_append, h.outcomes]
        simp only [List.map_cons, List.map_nil]
        rw [Uploader.outcomes_concat, ← howner]
      · rintro s ⟨⟩
        rw [hups, List.map_append]
        simp only [List.map_cons, List.map_nil]
        rw [Uploader.after_concat, ← howner]
      · rw [departed_append, or_iff_left (by simp [Departed])]
        exact iff_of_false nofun fun hgone => nomatch h.departed.mpr hgone

end Account

/-- **A history explains the queue it leads to.** -/
theorem Steps.account (h : Steps uploader (.start first) es m) :
    Account uploader first es m.handoff.owner m.tasks m.handoff.replies.length := by
  induction es using List.reverseRecOn generalizing m with
  | nil =>
      obtain rfl := nil_iff.mp h
      exact .start first
  | append_singleton es e ih =>
      obtain ⟨m', hes, hstep⟩ := concat_iff.mp h
      exact (ih hes).step (hstep.flow (hes.consistent (.start first)))

theorem Flow.ownerless {owner : Option σ} {tasks tasks' : List (Nat × β)} {n n' : Nat}
    (h : Flow uploader none tasks n e owner tasks' n') :
    owner = none ∧ e.submitted? = none ∧ e.uploaded? = none := by
  cases h with
  | refused atlas => exact ⟨rfl, rfl, rfl⟩
  | quiet hquiet => exact ⟨rfl, hquiet.submitted?, hquiet.uploaded?⟩

/-- Without an owner nothing is accepted and nothing is uploaded. -/
theorem Steps.ownerless (h : Steps uploader m es m') (hm : m.Consistent)
    (howner : m.handoff.owner = none) : submissions es = [] ∧ uploads es = [] := by
  induction h with
  | nil => exact ⟨rfl, rfl⟩
  | cons hstep _ ih =>
      have hflow := hstep.flow hm
      rw [howner] at hflow
      obtain ⟨howner', hsubmitted, huploaded⟩ := hflow.ownerless
      obtain ⟨hsubs, hups⟩ := ih (hstep.consistent hm) howner'
      constructor
      · rw [submissions, List.filterMap_cons_none hsubmitted]
        exact hsubs
      · rw [uploads, List.filterMap_cons_none huploaded]
        exact hups

/-! ### The tickets -/

/-- A history that explains what the holder of a ticket finds. -/
def Fate (es : List (Event σ β)) (t : Nat) : Option Reply → Prop
  | some (.ready o) => ∃ atlas, .upload t atlas o ∈ es
  | some .closed =>
      (∃ o, .poll t (some o) ∈ es) ∨ .dropOwner ∈ es ∧ ∀ atlas o, .upload t atlas o ∉ es
  | some .returned => ∃ o, .wait t o ∈ es
  | _ => True

/-- What was explained stays explained. -/
theorem Fate.concat {r : Option Reply} (h : Fate es t r)
    (hgone : .dropOwner ∈ es → e.uploaded? = none) : Fate (es ++ [e]) t r := by
  match r, h with
  | none, _ => trivial
  | some .pending, _ => trivial
  | some (.ready o), ⟨atlas, hupload⟩ => exact ⟨atlas, List.mem_append_left _ hupload⟩
  | some .returned, ⟨o, hwait⟩ => exact ⟨o, List.mem_append_left _ hwait⟩
  | some .closed, .inl ⟨o, hpoll⟩ => exact .inl ⟨o, List.mem_append_left _ hpoll⟩
  | some .closed, .inr ⟨hdrop, hnever⟩ =>
      refine .inr ⟨List.mem_append_left _ hdrop, fun atlas o hmem => ?_⟩
      rw [List.mem_append, List.mem_singleton] at hmem
      rcases hmem with hmem | rfl
      · exact hnever atlas o hmem
      · nomatch hgone hdrop

theorem Fate.step {r r' : Option Reply} (h : Fate es t r) (hlife : Life t r e r')
    (hreply : ∀ o, e = .reply t o → ∃ atlas, .upload t atlas o ∈ es)
    (hlost : r = some .pending → e = .dropOwner → ∀ atlas o, .upload t atlas o ∉ es)
    (hgone : .dropOwner ∈ es → e.uploaded? = none) : Fate (es ++ [e]) t r' := by
  cases hlife with
  | given atlas => trivial
  | answered o =>
      obtain ⟨atlas, hupload⟩ := hreply o rfl
      exact ⟨atlas, List.mem_append_left _ hupload⟩
  | lost =>
      refine .inr ⟨by simp, fun atlas o hmem => ?_⟩
      rw [List.mem_append, List.mem_singleton] at hmem
      rcases hmem with hmem | heq
      · exact hlost rfl rfl atlas o hmem
      · nomatch heq
  | taken o => exact .inl ⟨o, by simp⟩
  | collected o => exact ⟨o, by simp⟩
  | disappointed => exact ⟨.error .dropped, by simp⟩
  | refused _ => exact h.concat hgone
  | elsewhere _ _ => exact h.concat hgone

theorem Step.hand_of_reply (hstep : Step uploader m (.reply t o) m') :
    m.hand = .uploaded t o := by
  cases hstep with
  | reply hhand => exact hhand

theorem Step.hand_uploaded (hstep : Step uploader m e m') (hhand : m'.hand = .uploaded t o) :
    m.hand = .uploaded t o ∨ ∃ atlas, e = .upload t atlas o := by
  cases hstep with
  | @upload ticket atlas owner _ _ =>
      obtain ⟨rfl, rfl⟩ := Hand.uploaded.inj hhand
      exact .inr ⟨atlas, rfl⟩
  | take _ _ _ => nomatch hhand
  | reply _ => nomatch hhand
  | submit _ _ => exact .inl hhand
  | addSender _ => exact .inl hhand
  | dropSender _ => exact .inl hhand
  | poll _ => exact .inl hhand
  | wait _ => exact .inl hhand
  | beginPending _ _ => exact .inl hhand
  | beginRun _ _ => exact .inl hhand
  | endPending _ _ _ => exact .inl hhand
  | endRun _ _ _ _ _ => exact .inl hhand
  | dropOwner _ _ => exact .inl hhand

/-- What is in the hand of the owner was uploaded with that outcome. -/
theorem Steps.upload_of_hand (h : Steps uploader (.start first) es m)
    (hhand : m.hand = .uploaded t o) : ∃ atlas, .upload t atlas o ∈ es := by
  induction es using List.reverseRecOn generalizing m with
  | nil =>
      obtain rfl := nil_iff.mp h
      nomatch hhand
  | append_singleton es e ih =>
      obtain ⟨m', hes, hstep⟩ := concat_iff.mp h
      rcases hstep.hand_uploaded hhand with hbefore | ⟨atlas, rfl⟩
      · obtain ⟨atlas, hupload⟩ := ih hes hbefore
        exact ⟨atlas, List.mem_append_left _ hupload⟩
      · exact ⟨atlas, by simp⟩

/-- **A history explains every reply it leads to.** -/
theorem Steps.fate (h : Steps uploader (.start first) es m) (t : Nat) :
    Fate es t m.handoff.replies[t]? := by
  induction es using List.reverseRecOn generalizing m with
  | nil =>
      obtain rfl := nil_iff.mp h
      trivial
  | append_singleton es e ih =>
      obtain ⟨m', hes, hstep⟩ := concat_iff.mp h
      have hconsistent := hes.consistent (.start first)
      refine (ih hes).step (hstep.life hconsistent t) ?_ ?_ ?_
      · rintro o rfl
        exact hes.upload_of_hand hstep.hand_of_reply
      · -- only an idle owner is dropped, so that a pending task still waits in the queue
        rintro hpending rfl
        have hopen := (hconsistent.pending_iff t).mp hpending
        cases hstep with
        | dropOwner _ hidle =>
            refine hes.account.not_uploaded ?_
            rw [hconsistent.openTickets_of_idle hidle] at hopen
            rw [Moment.tasks, hconsistent.hand_of_idle hidle]
            exact hopen
      · intro hdropped
        have hgone := hes.account.departed.mpr (.inl hdropped)
        have hflow := hstep.flow hconsistent
        rw [hgone] at hflow
        exact hflow.ownerless.2.2

end Handoff

end VoxelBake

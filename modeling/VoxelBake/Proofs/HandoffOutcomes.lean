/-
**What can be relied on when atlases are handed over for upload.**

Whoever acts when, the owner uploads in the order of submission and nothing twice, nobody is told
the outcome of another task, and nothing is lost unless the owner is dropped.  An outcome can be
taken only once, though: one that was polled is not there for a later poll, and not for the wait.
All this is read off the histories of `Proofs/HandoffHistory.lean`.

Main definitions:

* `Handoff.Answered` — what can have come of an outcome that was left for a ticket;
* `Handoff.Hand.unreported` — the upload whose outcome is still to be left;
* `Handoff.Orderly` — what can be relied on.

Main results:

* `Handoff.Steps.answered` — what becomes of an outcome that was left;
* `Handoff.Steps.pending_count` — what uploading the pending tasks counts;
* `Handoff.orderly` — **a queue of uploads is orderly**, whoever acts when;
* `Handoff.outcome_taken_once` — **the first to ask gets the outcome**, and nobody after.
-/
import VoxelBake.Proofs.HandoffHistory

set_option relaxedAutoImplicit false
set_option autoImplicit false

namespace VoxelBake.Handoff

variable {σ β : Type} {uploader : Uploader σ β} {first : σ} {m m' : Moment σ β} {e : Event σ β}
  {es before between after : List (Event σ β)} {t : Nat} {o : Outcome}

/-! ### Outcomes that were left -/

/-- What can have come of an outcome that was left for a ticket. -/
def Answered (t : Nat) (o : Outcome) (es : List (Event σ β)) : Option Reply → Prop
  | some (.ready o') => o' = o ∧ (∀ found, .poll t found ∉ es) ∧ ∀ w, .wait t w ∉ es
  | some .closed => (∃ found, .poll t found ∈ es) ∧ ∀ w, .wait t w ∉ es
  | some .returned => ∃ w, .wait t w ∈ es
  | _ => False

theorem Answered.step {r r' : Option Reply} (h : Answered t o es r) (hlife : Life t r e r') :
    Answered t o (es ++ [e]) r' := by
  cases hlife with
  | given atlas => exact h.elim
  | answered o => exact h.elim
  | lost => exact h.elim
  | taken o =>
      obtain ⟨-, -, hwait⟩ := h
      exact ⟨⟨some o, by simp⟩, by simpa using hwait⟩
  | collected o => exact ⟨o, by simp⟩
  | disappointed => exact ⟨.error .dropped, by simp⟩
  | @refused r hr =>
      rcases hr with rfl | rfl
      · exact h.elim
      · obtain ⟨⟨found, hpoll⟩, hwait⟩ := h
        exact ⟨⟨found, List.mem_append_left _ hpoll⟩, by simpa using hwait⟩
  | @elsewhere r e hticket _ =>
      have hpolls : ∀ found, .poll t found ≠ e := by
        rintro found rfl
        exact hticket rfl
      have hwaits : ∀ w, .wait t w ≠ e := by
        rintro w rfl
        exact hticket rfl
      match r, h with
      | some (.ready o'), ⟨heq, hpoll, hwait⟩ =>
          exact ⟨heq, by simpa [hpolls] using hpoll, by simpa [hwaits] using hwait⟩
      | some .closed, ⟨⟨found, hpoll⟩, hwait⟩ =>
          exact ⟨⟨found, List.mem_append_left _ hpoll⟩, by simpa [hwaits] using hwait⟩
      | some .returned, ⟨w, hwait⟩ => exact ⟨w, List.mem_append_left _ hwait⟩

theorem Steps.answered (h : Steps uploader m es m') (hm : m.Consistent)
    (hready : m.handoff.replies[t]? = some (.ready o)) :
    Answered t o es m'.handoff.replies[t]? := by
  induction es using List.reverseRecOn generalizing m' with
  | nil =>
      obtain rfl := nil_iff.mp h
      rw [hready]
      exact ⟨rfl, by simp, by simp⟩
  | append_singleton es e ih =>
      obtain ⟨m₁, hes, hstep⟩ := concat_iff.mp h
      exact (ih hes).step (hstep.life (hes.consistent hm) t)

theorem Life.of_reply {r r' : Option Reply} (h : Life t r (.reply t o : Event σ β) r') :
    r' = some (.ready o) := by
  cases h with
  | answered => rfl
  | elsewhere hticket _ => exact absurd rfl hticket

theorem Life.of_wait {r r' : Option Reply} (h : Life t r (.wait t o : Event σ β) r') :
    r = some (.ready o) ∨ r = some .closed ∧ o = .error .dropped := by
  cases h with
  | collected => exact .inl rfl
  | disappointed => exact .inr ⟨rfl, rfl⟩
  | elsewhere hticket _ => exact absurd rfl hticket

theorem Life.of_poll {r r' : Option Reply} {found : Option Outcome}
    (h : Life t r (.poll t found : Event σ β) r') :
    (∃ o, r = some (.ready o) ∧ found = some o) ∨
      (r = some .pending ∨ r = some .closed) ∧ found = none := by
  cases h with
  | taken o => exact .inl ⟨o, rfl, rfl⟩
  | refused hr => exact .inr ⟨hr.imp (congrArg some) (congrArg some), rfl⟩
  | elsewhere hticket _ => exact absurd rfl hticket

/-- A poll finds what was left for the ticket, unless it was polled before. -/
theorem Answered.poll {r r' : Option Reply} {found : Option Outcome} (h : Answered t o es r)
    (hlife : Life t r (.poll t found : Event σ β) r') :
    (∀ found, .poll t found ∉ es) ∧ found = some o ∨
      (∃ found, .poll t found ∈ es) ∧ found = none := by
  rcases hlife.of_poll with ⟨o', rfl, rfl⟩ | ⟨rfl | rfl, rfl⟩
  · obtain ⟨rfl, hunpolled, -⟩ := h
    exact .inl ⟨hunpolled, rfl⟩
  · exact h.elim
  · exact .inr ⟨h.1, rfl⟩

/-- Waiting gives what was left for the ticket, unless it was polled before. -/
theorem Answered.wait {r r' : Option Reply} {outcome : Outcome} (h : Answered t o es r)
    (hlife : Life t r (.wait t outcome : Event σ β) r') :
    (∀ found, .poll t found ∉ es) ∧ outcome = o ∨
      (∃ found, .poll t found ∈ es) ∧ outcome = .error .dropped := by
  rcases hlife.of_wait with rfl | ⟨rfl, rfl⟩
  · obtain ⟨rfl, hunpolled, -⟩ := h
    exact .inl ⟨hunpolled, rfl⟩
  · exact .inr ⟨h.1, rfl⟩

/-- The reply of a ticket, some time after its outcome was left. -/
theorem Steps.answered_between
    (h : Steps uploader (.start first) (before ++ .reply t o :: between) m) :
    Answered t o between m.handoff.replies[t]? := by
  obtain ⟨m₁, m₂, hbefore, hreply, hbetween⟩ := h.cut
  have hm₁ := hbefore.consistent (.start first)
  exact hbetween.answered (hreply.consistent hm₁) (hreply.life hm₁ t).of_reply

/-! ### Counting what was pending -/

/-- An upload whose outcome is still to be left. -/
def Hand.unreported : Hand β → Nat
  | uploaded _ _ => 1
  | _ => 0

theorem Step.pending_count (hstep : Step uploader m e m') {count : Nat}
    (hwork : m.work = .pending count) (hends : ∀ n, e ≠ .endPending n) :
    ∃ count', m'.work = .pending count' ∧
      count' + m'.hand.unreported = count + m.hand.unreported + (uploads [e]).length := by
  cases hstep with
  | beginPending _ hidle => nomatch hwork.symm.trans hidle
  | beginRun _ hidle => nomatch hwork.symm.trans hidle
  | dropOwner _ hidle => nomatch hwork.symm.trans hidle
  | endRun _ hserving _ _ _ => nomatch hwork.symm.trans hserving
  | @endPending n _ _ _ => exact absurd rfl (hends n)
  | take _ hhand _ =>
      refine ⟨count, hwork, ?_⟩
      rw [hhand]
      rfl
  | upload _ hhand =>
      refine ⟨count, hwork, ?_⟩
      rw [hhand]
      rfl
  | reply hhand =>
      -- only now the upload is counted
      refine ⟨count + 1, by rw [hwork]; rfl, ?_⟩
      rw [hhand]
      rfl
  | submit _ _ => exact ⟨count, hwork, rfl⟩
  | addSender _ => exact ⟨count, hwork, rfl⟩
  | dropSender _ => exact ⟨count, hwork, rfl⟩
  | poll _ => exact ⟨count, hwork, rfl⟩
  | wait _ => exact ⟨count, hwork, rfl⟩

theorem Steps.pending_count (h : Steps uploader m es m') {count : Nat}
    (hwork : m.work = .pending count) (hends : ∀ n, .endPending n ∉ es) :
    ∃ count', m'.work = .pending count' ∧
      count' + m'.hand.unreported = count + m.hand.unreported + (uploads es).length := by
  induction h generalizing count with
  | nil => exact ⟨count, hwork, rfl⟩
  | @cons m m' m'' e es hstep _ ih =>
      have hhead : ∀ n, e ≠ .endPending n := by
        rintro n rfl
        exact hends n List.mem_cons_self
      have htail : ∀ n, .endPending n ∉ es := fun n hmem => hends n (List.mem_cons_of_mem _ hmem)
      obtain ⟨count₁, hwork₁, hcount₁⟩ := hstep.pending_count hwork hhead
      obtain ⟨count₂, hwork₂, hcount₂⟩ := ih hwork₁ htail
      refine ⟨count₂, hwork₂, ?_⟩
      have hlength : (uploads (e :: es)).length = (uploads [e]).length + (uploads es).length := by
        rw [← List.singleton_append, uploads_append, List.length_append]
      omega

/-! ### What can be relied on -/

/-- A history as everybody expects it. -/
structure Orderly (uploader : Uploader σ β) (first : σ) (es : List (Event σ β))
    (m : Moment σ β) : Prop where
  /-- No ticket is given out twice. -/
  tickets : ((submissions es).map Prod.fst).Nodup
  /-- What was uploaded is what was submitted first, every task once. -/
  in_order : (uploads es).map Prod.fst <+: submissions es
  /-- The outcomes are those of uploading one atlas after another. -/
  outcomes : (uploads es).map Prod.snd =
    uploader.outcomes first ((uploads es).map fun u => u.1.2)
  /-- Who waits, without having taken the outcome before, gets the outcome of the upload of the
  atlas that was submitted under the ticket; or this upload never happens. -/
  waits : ∀ before after t outcome, es = before ++ .wait t outcome :: after →
    (∀ o, .poll t (some o) ∉ before) →
    (∃ atlas, .submit atlas (.ok t) ∈ before ∧ .upload t atlas outcome ∈ before) ∨
      outcome = .error .dropped ∧ .dropOwner ∈ before ∧ ∀ atlas o, .upload t atlas o ∉ es
  /-- Who waits for what was not uploaded is told of an owner that was dropped. -/
  lost : ∀ before after t outcome, es = before ++ .wait t outcome :: after →
    (∀ atlas o, .upload t atlas o ∉ before) →
    outcome = .error .dropped ∧ .dropOwner ∈ before
  /-- Every atlas is accepted until the owner is gone, and none after. -/
  submits : ∀ before after atlas answer, es = before ++ .submit atlas answer :: after →
    (Departed before → answer = .error .ownerGone) ∧
      (¬ Departed before → ∃ ticket, answer = .ok ticket)
  /-- Uploading what is pending leaves nothing behind, and counts what it uploaded. -/
  pendings : ∀ before between after n,
    es = before ++ .beginPending :: (between ++ .endPending n :: after) →
    (∀ k, .endPending k ∉ between) →
    n = (uploads between).length ∧
      (uploads (before ++ .beginPending :: between)).map Prod.fst =
        submissions (before ++ .beginPending :: between)
  /-- Uploading until no sender is left ends with everything uploaded that is ever submitted. -/
  runs : ∀ before after owner, es = before ++ .endRun owner :: after →
    (uploads before).map Prod.fst = submissions es ∧
      owner = uploader.after first ((submissions es).map Prod.snd)
  /-- Once there is an outcome, or can be none, the holder of a ticket is not held up. -/
  answered : ∀ t, t ∈ (submissions es).map Prod.fst → (Departed es ∨ ∃ o, .reply t o ∈ es) →
    (∀ o, .wait t o ∉ es) → ∃ o m', Step uploader m (.wait t o) m'
  /-- The owner can upload at any time what is pending, and do so without a break. -/
  drains : ∀ owner, m.handoff.owner = some owner → m.work = .idle →
    (m.handoff.processPending uploader).1 = some m.handoff.waiting.length ∧
      Steps uploader m
        (.beginPending :: (serveEvents uploader owner m.handoff.waiting ++
          [.endPending m.handoff.waiting.length]))
        (.resting (m.handoff.processPending uploader).2)
  /-- Without senders it can upload what is left, and do so without a break. -/
  serves : ∀ owner, m.handoff.owner = some owner → m.work = .idle → m.handoff.senders = 0 →
    ∃ last, (m.handoff.run uploader).1 = some last ∧
      Steps uploader m
        (.beginRun :: (serveEvents uploader owner m.handoff.waiting ++ [.endRun last]))
        (.resting (m.handoff.run uploader).2)
  /-- A sender can hand over an atlas and wait until the owner has uploaded it. -/
  delivers : ∀ owner atlas, m.handoff.owner = some owner → m.work = .idle →
    0 < m.handoff.senders →
    Steps uploader m
      (.submit atlas (.ok m.handoff.replies.length) :: .beginPending ::
        (serveEvents uploader owner (m.handoff.waiting ++ [(m.handoff.replies.length, atlas)]) ++
          [.endPending (m.handoff.waiting.length + 1),
            .wait m.handoff.replies.length (m.handoff.upload uploader atlas).1]))
      (.resting (m.handoff.upload uploader atlas).2)

/-- Only what was submitted is uploaded. -/
theorem Steps.submit_of_upload (h : Steps uploader (.start first) es m) {atlas : β}
    (hupload : .upload t atlas o ∈ es) : .submit atlas (.ok t) ∈ es := by
  refine mem_submissions.mp (h.account.uploads_prefix.subset ?_)
  exact List.mem_map.mpr ⟨_, mem_uploads.mpr hupload, rfl⟩

/-- Only what was uploaded can be taken. -/
theorem Steps.upload_of_poll (h : Steps uploader (.start first) es m)
    (hpoll : .poll t (some o) ∈ es) : ∃ atlas, .upload t atlas o ∈ es := by
  obtain ⟨before, after, rfl⟩ := List.append_of_mem hpoll
  obtain ⟨m₁, m₂, hbefore, hstep, -⟩ := h.cut
  rcases (hstep.life (hbefore.consistent (.start first)) t).of_poll with ⟨o', hr, ho⟩ | ⟨-, ho⟩
  · cases ho
    have hfate := hbefore.fate t
    rw [hr] at hfate
    obtain ⟨atlas, hupload⟩ := hfate
    exact ⟨atlas, List.mem_append_left _ hupload⟩
  · nomatch ho

theorem Steps.submissions_eq (h : Steps uploader (.start first) es m)
    (howner : m.handoff.owner ≠ none) (hhand : m.hand = .empty)
    (hwaiting : m.handoff.waiting = []) :
    (uploads es).map Prod.fst = submissions es := by
  have htasks : m.tasks = [] := by simp [Moment.tasks, Hand.tasks, hhand, hwaiting]
  rw [h.account.submissions_eq howner, htasks, List.append_nil]

theorem Steps.wait_orderly (h : Steps uploader (.start first) (before ++ .wait t o :: after) m)
    (hunpolled : ∀ o, .poll t (some o) ∉ before) :
    (∃ atlas, .submit atlas (.ok t) ∈ before ∧ .upload t atlas o ∈ before) ∨
      o = .error .dropped ∧ .dropOwner ∈ before ∧
        ∀ atlas o', .upload t atlas o' ∉ before ++ .wait t o :: after := by
  obtain ⟨m₁, m₂, hbefore, hstep, hafter⟩ := h.cut
  have hm₁ := hbefore.consistent (.start first)
  have hfate := hbefore.fate t
  rcases (hstep.life hm₁ t).of_wait with hr | ⟨hr, rfl⟩
  · rw [hr] at hfate
    obtain ⟨atlas, hupload⟩ := hfate
    exact .inl ⟨atlas, hbefore.submit_of_upload hupload, hupload⟩
  · rw [hr] at hfate
    rcases hfate with ⟨o', hpoll⟩ | ⟨hdrop, hnever⟩
    · exact absurd hpoll (hunpolled o')
    · refine .inr ⟨rfl, hdrop, fun atlas o' hmem => ?_⟩
      rcases List.mem_append.mp hmem with hmem | hmem
      · exact hnever atlas o' hmem
      · -- nor later, for the owner is gone
        have hgone := hbefore.account.departed.mpr (.inl hdrop)
        have hnone := ((Steps.cons hstep hafter).ownerless hm₁ hgone).2
        have hupload := mem_uploads.mpr hmem
        rw [hnone] at hupload
        exact absurd hupload List.not_mem_nil

theorem Steps.wait_lost (h : Steps uploader (.start first) (before ++ .wait t o :: after) m)
    (hnever : ∀ atlas o, .upload t atlas o ∉ before) :
    o = .error .dropped ∧ .dropOwner ∈ before := by
  obtain ⟨m₁, m₂, hbefore, hstep, -⟩ := h.cut
  have hunpolled : ∀ o, .poll t (some o) ∉ before := by
    intro o hpoll
    obtain ⟨atlas, hupload⟩ := hbefore.upload_of_poll hpoll
    exact hnever atlas o hupload
  rcases h.wait_orderly hunpolled with ⟨atlas, -, hupload⟩ | ⟨ho, hdrop, -⟩
  · exact absurd hupload (hnever atlas o)
  · exact ⟨ho, hdrop⟩

theorem Steps.submit_orderly {atlas : β} {answer : Except HandoffFault Nat}
    (h : Steps uploader (.start first) (before ++ .submit atlas answer :: after) m) :
    (Departed before → answer = .error .ownerGone) ∧
      (¬ Departed before → ∃ ticket, answer = .ok ticket) := by
  obtain ⟨m₁, m₂, hbefore, hstep, -⟩ := h.cut
  rw [← hbefore.account.departed]
  cases hstep with
  | submit _ _ =>
      unfold Handoff.submit
      split
      · next howner => exact ⟨fun _ => rfl, fun hne => absurd howner hne⟩
      · next howner => exact ⟨fun hnone => (nomatch howner.symm.trans hnone), fun _ => ⟨_, rfl⟩⟩

theorem Steps.pending_orderly {n : Nat}
    (h : Steps uploader (.start first)
      (before ++ .beginPending :: (between ++ .endPending n :: after)) m)
    (hends : ∀ k, .endPending k ∉ between) :
    n = (uploads between).length ∧
      (uploads (before ++ .beginPending :: between)).map Prod.fst =
        submissions (before ++ .beginPending :: between) := by
  obtain ⟨m₁, m₂, hbefore, hbegin, hrest⟩ := h.cut
  obtain ⟨m₃, m₄, hbetween, hend, -⟩ := hrest.cut
  have hm₁ := hbefore.consistent (.start first)
  have hthere : Steps uploader (.start first) (before ++ .beginPending :: between) m₃ :=
    hbefore.append (.cons hbegin hbetween)
  cases hend with
  | endPending hwork hhand hwaiting =>
      constructor
      · cases hbegin with
        | beginPending _ hidle =>
            obtain ⟨count, hcount, heq⟩ := hbetween.pending_count rfl hends
            rw [hwork] at hcount
            cases hcount
            simpa [hhand, hm₁.hand_of_idle hidle, Hand.unreported] using heq
      · refine hthere.submissions_eq (fun hnone => ?_) hhand hwaiting
        rw [(hthere.consistent (.start first)).idle_of_ownerless hnone] at hwork
        nomatch hwork

theorem Steps.run_orderly {owner : σ}
    (h : Steps uploader (.start first) (before ++ .endRun owner :: after) m) :
    (uploads before).map Prod.fst = submissions (before ++ .endRun owner :: after) ∧
      owner = uploader.after first
        ((submissions (before ++ .endRun owner :: after)).map Prod.snd) := by
  obtain ⟨m₁, m₂, hbefore, hstep, hafter⟩ := h.cut
  have hm₂ := hstep.consistent (hbefore.consistent (.start first))
  cases hstep with
  | endRun howner _ hhand hwaiting _ =>
      have hall : (uploads before).map Prod.fst = submissions before :=
        hbefore.submissions_eq (by simp [howner]) hhand hwaiting
      have hlate : submissions (.endRun owner :: after) = [] := (hafter.ownerless hm₂ rfl).1
      rw [submissions_append, hlate, List.append_nil, ← hall]
      refine ⟨rfl, ?_⟩
      rw [hbefore.account.owner_eq owner howner, List.map_map]
      rfl

theorem Steps.wait_of_answered (h : Steps uploader (.start first) es m)
    (ht : t ∈ (submissions es).map Prod.fst) (hdone : Departed es ∨ ∃ o, .reply t o ∈ es)
    (hunwaited : ∀ o, .wait t o ∉ es) : ∃ o m', Step uploader m (.wait t o) m' := by
  have hm := h.consistent (.start first)
  rw [h.account.tickets, List.mem_range] at ht
  have hreply := List.getElem?_eq_getElem ht
  have hfate := h.fate t
  generalize m.handoff.replies[t] = r at hreply
  rw [hreply] at hfate
  cases r with
  | ready o => exact ⟨o, _, .wait (by rw [Handoff.wait, hreply])⟩
  | closed => exact ⟨.error .dropped, _, .wait (by rw [Handoff.wait, hreply])⟩
  | returned =>
      obtain ⟨o, hwait⟩ := hfate
      exact absurd hwait (hunwaited o)
  | pending =>
      rcases hdone with hgone | ⟨o, hanswer⟩
      · have hopen := (hm.pending_iff t).mp hreply
        rw [hm.openTickets_of_ownerless (h.account.departed.mpr hgone)] at hopen
        exact absurd hopen List.not_mem_nil
      · obtain ⟨before, after, rfl⟩ := List.append_of_mem hanswer
        have hanswered := h.answered_between
        rw [hreply] at hanswered
        exact hanswered.elim

/-- **A queue of uploads is orderly**, whoever acts when. -/
theorem orderly (h : Steps uploader (.start first) es m) : Orderly uploader first es m where
  tickets := h.account.nodup
  in_order := h.account.uploads_prefix
  outcomes := h.account.outcomes
  waits before after t outcome heq := by
    subst heq
    exact h.wait_orderly
  lost before after t outcome heq := by
    subst heq
    exact h.wait_lost
  submits before after atlas answer heq := by
    subst heq
    exact h.submit_orderly
  pendings before between after n heq := by
    subst heq
    exact h.pending_orderly
  runs before after owner heq := by
    subst heq
    exact h.run_orderly
  answered t := h.wait_of_answered
  drains owner howner hidle := by
    rw [(h.consistent (.start first)).eq_resting hidle]
    exact processPending_steps uploader howner
  serves owner howner hidle hsenders := by
    rw [(h.consistent (.start first)).eq_resting hidle]
    exact run_steps uploader howner hsenders
  delivers owner atlas howner hidle hsenders := by
    rw [(h.consistent (.start first)).eq_resting hidle]
    exact upload_steps uploader howner hsenders atlas

/-- An uploader that counts, and loses the device on one atlas. -/
def countingUploader : Uploader Nat Nat := fun count atlas =>
  if atlas = 7 then (.error (.rejected "device lost"), count) else (.ok (), count + 1)

/-- Two senders, an upload that fails, an atlas submitted while the owner is at work, and an owner
that is dropped. -/
def droppedHistory : List (Event Nat Nat) :=
  [.addSender, .submit 5 (.ok 0), .submit 7 (.ok 1), .poll 0 none, .beginPending, .take 0 5,
    .submit 9 (.ok 2), .upload 0 5 (.ok ()), .poll 0 none, .reply 0 (.ok ()), .wait 0 (.ok ()),
    .take 1 7, .upload 1 7 (.error (.rejected "device lost")),
    .reply 1 (.error (.rejected "device lost")), .take 2 9, .upload 2 9 (.ok ()),
    .reply 2 (.ok ()), .endPending 3, .submit 4 (.ok 3), .dropOwner,
    .submit 6 (.error .ownerGone), .wait 1 (.error (.rejected "device lost")),
    .poll 2 (some (.ok ())), .wait 3 (.error .dropped)]

/-- An owner that uploads until no sender is left. -/
def servedHistory : List (Event Nat Nat) :=
  [.submit 5 (.ok 0), .beginRun, .take 0 5, .upload 0 5 (.ok ()), .submit 9 (.ok 1),
    .dropSender, .reply 0 (.ok ()), .take 1 9, .wait 0 (.ok ()), .upload 1 9 (.ok ()),
    .reply 1 (.ok ()), .endRun 2, .wait 1 (.ok ())]

theorem droppedHistory_steps : ∃ m, Steps countingUploader (.start 0) droppedHistory m :=
  ⟨_, .cons (.addSender (by decide)) <| .cons (.submit 5 (by decide)) <|
    .cons (.submit 7 (by decide)) <| .cons (.poll ⟨_, rfl, nofun⟩) <|
    .cons (.beginPending rfl rfl) <| .cons (.take nofun rfl rfl) <|
    .cons (.submit 9 (by decide)) <| .cons (.upload rfl rfl) <|
    .cons (.poll ⟨_, rfl, nofun⟩) <| .cons (.reply rfl) <| .cons (.wait rfl) <|
    .cons (.take nofun rfl rfl) <| .cons (.upload rfl rfl) <| .cons (.reply rfl) <|
    .cons (.take nofun rfl rfl) <| .cons (.upload rfl rfl) <| .cons (.reply rfl) <|
    .cons (.endPending rfl rfl rfl) <| .cons (.submit 4 (by decide)) <|
    .cons (.dropOwner rfl rfl) <| .cons (.submit 6 (by decide)) <| .cons (.wait rfl) <|
    .cons (.poll ⟨_, rfl, nofun⟩) <| .cons (.wait rfl) .nil⟩

theorem servedHistory_steps : ∃ m, Steps countingUploader (.start 0) servedHistory m :=
  ⟨_, .cons (.submit 5 (by decide)) <| .cons (.beginRun rfl rfl) <|
    .cons (.take nofun rfl rfl) <| .cons (.upload rfl rfl) <| .cons (.submit 9 (by decide)) <|
    .cons (.dropSender (by decide)) <| .cons (.reply rfl) <| .cons (.take nofun rfl rfl) <|
    .cons (.wait rfl) <| .cons (.upload rfl rfl) <| .cons (.reply rfl) <|
    .cons (.endRun rfl rfl rfl rfl rfl) <| .cons (.wait rfl) .nil⟩

theorem orderly_dropped_and_served :
    (∃ m, Steps countingUploader (.start 0) droppedHistory m ∧
      Orderly countingUploader 0 droppedHistory m) ∧
    ∃ m, Steps countingUploader (.start 0) servedHistory m ∧
      Orderly countingUploader 0 servedHistory m := by
  obtain ⟨m, hdropped⟩ := droppedHistory_steps
  obtain ⟨m', hserved⟩ := servedHistory_steps
  exact ⟨⟨m, hdropped, orderly hdropped⟩, m', hserved, orderly hserved⟩

/-! ### Taking an outcome -/

/-- **The first to ask for an outcome gets it**, and nobody after. -/
theorem outcome_taken_once
    (h : Steps uploader (.start first) (before ++ .reply t o :: (between ++ e :: after)) m) :
    (∃ atlas, .upload t atlas o ∈ before) ∧
      ((∀ found, .poll t found ∉ between) →
        (∀ found, e = .poll t found → found = some o) ∧
        ∀ outcome, e = .wait t outcome → outcome = o) ∧
      ((∃ found, .poll t found ∈ between) →
        (∀ found, e = .poll t found → found = none) ∧
        ∀ outcome, e = .wait t outcome → outcome = .error .dropped) := by
  obtain ⟨m₁, m₂, hbefore, hreply, -⟩ := h.cut
  refine ⟨hbefore.upload_of_hand hreply.hand_of_reply, ?_⟩
  -- the same history, cut where the ticket is asked for
  rw [← List.cons_append, ← List.append_assoc] at h
  obtain ⟨m₃, m₄, hbetween, hstep, -⟩ := h.cut
  have hlife := hstep.life (hbetween.consistent (.start first)) t
  have hanswered := hbetween.answered_between
  constructor
  · intro hunpolled
    have hnot : ¬ ∃ found, .poll t found ∈ between := by
      rintro ⟨found, hmem⟩
      exact hunpolled found hmem
    constructor
    · rintro found rfl
      exact ((hanswered.poll hlife).resolve_right fun h => hnot h.1).2
    · rintro outcome rfl
      exact ((hanswered.wait hlife).resolve_right fun h => hnot h.1).2
  · rintro ⟨found, hpolled⟩
    constructor
    · rintro found' rfl
      exact ((hanswered.poll hlife).resolve_left fun h => h.1 found hpolled).2
    · rintro outcome rfl
      exact ((hanswered.wait hlife).resolve_left fun h => h.1 found hpolled).2

/-- An uploader for those who have nothing to upload to. -/
def headlessUploader : Uploader Unit Unit := fun _ _ => (.ok (), ())

/-- An atlas is submitted and uploaded. -/
def uploadedHistory : List (Event Unit Unit) :=
  [.submit () (.ok 0), .beginPending, .take 0 (), .upload 0 () (.ok ())]

/-- Its ticket is polled twice after the outcome was left, and given back. -/
def polledHistory : List (Event Unit Unit) :=
  uploadedHistory ++ .reply 0 (.ok ()) ::
    ([.endPending 1, .poll 0 (some (.ok ())), .poll 0 none] ++ [.wait 0 (.error .dropped)])

theorem polledHistory_steps : ∃ m, Steps headlessUploader (.start ()) polledHistory m :=
  ⟨_, .cons (.submit () (by decide)) <| .cons (.beginPending rfl rfl) <|
    .cons (.take nofun rfl rfl) <| .cons (.upload rfl rfl) <| .cons (.reply rfl) <|
    .cons (.endPending rfl rfl rfl) <| .cons (.poll ⟨_, rfl, nofun⟩) <|
    .cons (.poll ⟨_, rfl, nofun⟩) <| .cons (.wait rfl) .nil⟩

theorem outcome_taken_once_polled :
    (∃ m, Steps headlessUploader (.start ()) polledHistory m) ∧
      (∃ atlas, .upload 0 atlas (.ok ()) ∈ uploadedHistory) ∧
      (∀ found, (.poll 0 (some (.ok ())) : Event Unit Unit) = .poll 0 found →
        found = some (.ok ())) ∧
      ∀ outcome, (.wait 0 (.error .dropped) : Event Unit Unit) = .wait 0 outcome →
        outcome = .error .dropped := by
  obtain ⟨m, hm⟩ := polledHistory_steps
  have hpoll : Steps headlessUploader (.start ())
      (uploadedHistory ++ .reply 0 (.ok ()) :: ([.endPending 1] ++ .poll 0 (some (.ok ())) ::
        [.poll 0 none, .wait 0 (.error .dropped)])) m := hm
  obtain ⟨hupload, hfirst, -⟩ := outcome_taken_once hpoll
  obtain ⟨-, -, hlate⟩ := outcome_taken_once hm
  exact ⟨⟨m, hm⟩, hupload, (hfirst (by simp)).1, (hlate ⟨some (.ok ()), by simp⟩).2⟩

/-- A successful upload that is lost by polling. -/
theorem outcome_lost_by_polling :
    (∃ m, Steps headlessUploader (.start ()) polledHistory m) ∧
      ¬ ∀ (before between after : List (Event Unit Unit)) (e : Event Unit Unit) (t : Nat)
          (o : Outcome), polledHistory = before ++ .reply t o :: (between ++ e :: after) →
        (∀ found, e = .poll t found → found = some o) ∧
          ∀ outcome, e = .wait t outcome → outcome = o := by
  refine ⟨polledHistory_steps, fun h => ?_⟩
  have hwait := h uploadedHistory [.endPending 1, .poll 0 (some (.ok ())), .poll 0 none] []
    (.wait 0 (.error .dropped)) 0 (.ok ()) rfl
  nomatch hwait.2 (.error .dropped) rfl

end VoxelBake.Handoff

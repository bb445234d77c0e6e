/-
Handing atlases over for upload.

Only the owner of the rendering resources may create textures.  Whoever has an atlas puts it into a
queue and gets a ticket; the owner takes the atlases out in order, uploads them and leaves the
outcome for the holder of the ticket, who can take it once.  When the owner goes, everything still
waiting is lost, and nothing more is accepted.

* `HandoffFault` — why an upload did not happen;
* `Reply` — what the holder of a ticket may find;
* `Handoff` — the queue, the owner and the tickets;
* `Handoff.submit`, `Handoff.poll`, `Handoff.wait` — the side of those who have atlases;
* `Handoff.processPending`, `Handoff.run`, `Handoff.dropOwner` — the side of the owner;
* `Handoff.upload` — submitting and waiting while the owner is at work.
-/
import VoxelBake.Table

set_option relaxedAutoImplicit false
set_option autoImplicit false

namespace VoxelBake

/-- Why an upload did not happen. -/
inductive HandoffFault
  /-- The owner is gone. -/
  | ownerGone
  /-- The owner went before the upload, or the outcome was taken before. -/
  | dropped
  /-- The upload was tried and failed. -/
  | rejected (reason : String)
deriving DecidableEq

/-- The wording of a fault. -/
def HandoffFault.message : HandoffFault → String
  | ownerGone => "render resource owner is gone"
  | dropped => "upload task was dropped unprocessed"
  | rejected reason => reason

/-- The outcome of an upload. -/
abbrev Outcome := Except HandoffFault Unit

/-- What the holder of a ticket may find. -/
inductive Reply
  /-- Nothing yet. -/
  | pending
  /-- The outcome of the upload. -/
  | ready (outcome : Outcome)
  /-- Nothing, and nothing will come. -/
  | closed
  /-- The ticket was given back. -/
  | returned

/-- An upload as the owner carries it out: the outcome, and the state of the owner afterwards. -/
abbrev Uploader (σ β : Type) := σ → β → Outcome × σ

/-- A queue of atlases, the owner that uploads them, and the tickets given out. -/
structure Handoff (σ β : Type) where
  /-- The state of the owner, as long as there is one. -/
  owner : Option σ
  /-- How many can put atlases into the queue. -/
  senders : Nat
  /-- What waits in the queue, oldest first, each under its ticket. -/
  waiting : List (Nat × β)
  /-- What the holder of each ticket finds; tickets are numbered from zero. -/
  replies : List Reply

namespace Handoff

variable {σ β : Type}

/-- An owner with an empty queue and one sender. -/
def start (owner : σ) : Handoff σ β := ⟨some owner, 1, [], []⟩

/-! ### Senders -/

/-- One more sender for the same queue. -/
def addSender (h : Handoff σ β) : Handoff σ β := { h with senders := h.senders + 1 }

/-- One sender less. -/
def dropSender (h : Handoff σ β) : Handoff σ β := { h with senders := h.senders - 1 }

/-- Puts an atlas into the queue and gives out a ticket, unless the owner is gone. -/
def submit (h : Handoff σ β) (atlas : β) : Except HandoffFault Nat × Handoff σ β :=
  match h.owner with
  | none => (.error .ownerGone, h)
  | some _ =>
      let ticket := h.replies.length
      (.ok ticket,
        { h with
          waiting := h.waiting ++ [(ticket, atlas)]
          replies := h.replies ++ [.pending] })

/-- Takes the outcome of a ticket if it is there. -/
def poll (h : Handoff σ β) (ticket : Nat) : Option Outcome × Handoff σ β :=
  match h.replies[ticket]? with
  | some (.ready outcome) => (some outcome, { h with replies := h.replies.set ticket .closed })
  | _ => (none, h)

/-- Gives a ticket back for its outcome.  Nothing happens while the outcome is still to come, or
if the ticket was given back before. -/
def wait (h : Handoff σ β) (ticket : Nat) : Option Outcome × Handoff σ β :=
  match h.replies[ticket]? with
  | some (.ready outcome) => (some outcome, { h with replies := h.replies.set ticket .returned })
  | some .closed => (some (.error .dropped), { h with replies := h.replies.set ticket .returned })
  | _ => (none, h)

/-! ### The owner -/

/-- Uploads what waits, oldest first: the state of the owner and the replies afterwards. -/
def serve (uploader : Uploader σ β) : σ → List Reply → List (Nat × β) → σ × List Reply
  | owner, replies, [] => (owner, replies)
  | owner, replies, (ticket, atlas) :: rest =>
      let (outcome, owner) := uploader owner atlas
      serve uploader owner (replies.set ticket (.ready outcome)) rest

/-- Uploads everything that waits and says how much that was; nothing without an owner. -/
def processPending (uploader : Uploader σ β) (h : Handoff σ β) : Option Nat × Handoff σ β :=
  match h.owner with
  | none => (none, h)
  | some owner =>
      let (owner, replies) := serve uploader owner h.replies h.waiting
      (some h.waiting.length, { h with owner := some owner, waiting := [], replies := replies })

/-- The replies after everything that waits was lost. -/
def closeAll (replies : List Reply) (waiting : List (Nat × β)) : List Reply :=
  waiting.foldl (fun rs w => rs.set w.1 .closed) replies

/-- Lets the owner go; what waits is lost. -/
def dropOwner (h : Handoff σ β) : Handoff σ β :=
  { h with owner := none, waiting := [], replies := closeAll h.replies h.waiting }

/-- Uploads until no sender is left, and hands out the last state of the owner.  Nothing happens
without an owner, or as long as there are senders. -/
def run (uploader : Uploader σ β) (h : Handoff σ β) : Option σ × Handoff σ β :=
  match h.owner, h.senders with
  | some owner, 0 =>
      let (owner, replies) := serve uploader owner h.replies h.waiting
      (some owner, { h with owner := none, waiting := [], replies := replies })
  | _, _ => (none, h)

/-! ### Both sides at once -/

/-- Puts an atlas into the queue and waits for its outcome while the owner is at work. -/
def upload (uploader : Uploader σ β) (h : Handoff σ β) (atlas : β) : Outcome × Handoff σ β :=
  match h.submit atlas with
  | (.error fault, h) => (.error fault, h)
  | (.ok ticket, h) =>
      let (_, h) := h.processPending uploader
      match h.wait ticket with
      | (some outcome, h) => (outcome, h)
      | (none, h) => (.error .dropped, h)

end Handoff

end VoxelBake

import Mathlib.Data.List.Basic

/-!
# Mailboxes

A bounded queue between its senders and one receiver.  A message that does not
fit is not taken.  What was ever sent is what the receiver has taken, followed
by what still waits.
-/

/-- The messages that were taken are kept, for what is said about them. -/
structure Mailbox (Message : Type) (capacity : Nat) where
  taken : List Message
  waiting : List Message
  fits : waiting.length ≤ capacity

namespace Mailbox

variable {Message : Type} {capacity : Nat}

def empty : Mailbox Message capacity where
  taken := []
  waiting := []
  fits := Nat.zero_le _

/-- Every message that was sent, in order. -/
def sent (mailbox : Mailbox Message capacity) : List Message :=
  mailbox.taken ++ mailbox.waiting

def trySend (mailbox : Mailbox Message capacity) (message : Message) :
    Option (Mailbox Message capacity) :=
  if room : mailbox.waiting.length < capacity then
    some
      { mailbox with
        waiting := mailbox.waiting ++ [message]
        fits := by
          rw [List.length_append]
          exact room }
  else none

/-- The receiver takes the message that waits longest. -/
def receive (mailbox : Mailbox Message capacity) :
    Option (Message × Mailbox Message capacity) :=
  match waits : mailbox.waiting with
  | [] => none
  | message :: rest =>
      some (message,
        { taken := mailbox.taken ++ [message]
          waiting := rest
          fits := by
            have fits := mailbox.fits
            rw [waits] at fits
            exact Nat.le_of_succ_le fits })

variable {mailbox next : Mailbox Message capacity} {message : Message}

theorem taken_of_trySend (sends : mailbox.trySend message = some next) :
    next.taken = mailbox.taken := by
  unfold trySend at sends
  split at sends
  · cases sends
    rfl
  · cases sends

theorem sent_of_trySend (sends : mailbox.trySend message = some next) :
    next.sent = mailbox.sent ++ [message] := by
  unfold trySend at sends
  split at sends
  · cases sends
    exact (List.append_assoc _ _ _).symm
  · cases sends

theorem taken_of_receive (receives : mailbox.receive = some (message, next)) :
    next.taken = mailbox.taken ++ [message] := by
  unfold receive at receives
  split at receives
  · cases receives
  · cases receives
    rfl

/-- Receiving sends nothing and loses nothing. -/
theorem sent_of_receive (receives : mailbox.receive = some (message, next)) :
    next.sent = mailbox.sent := by
  unfold receive at receives
  split at receives
  · cases receives
  · rename_i first rest waits
    cases receives
    calc mailbox.taken ++ [message] ++ rest
        = mailbox.taken ++ (message :: rest) :=
          List.append_assoc _ _ _
      _ = mailbox.sent := congrArg (mailbox.taken ++ ·) waits.symm

/-- An empty mailbox hands a message on. -/
theorem exists_receive_of_trySend (empty : mailbox.waiting = [])
    (room : 0 < capacity) (message : Message) :
    ∃ holding next, mailbox.trySend message = some holding ∧
      holding.receive = some (message, next) ∧ next.waiting = [] := by
  obtain ⟨taken, waiting, fits⟩ := mailbox
  subst empty
  refine ⟨⟨taken, [message], room⟩, ⟨taken ++ [message], [], Nat.zero_le _⟩,
    ?_, rfl, rfl⟩
  exact dif_pos room

end Mailbox

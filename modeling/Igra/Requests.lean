import Mathlib.Data.List.Induction

/-!
# Requests and replies in a log

The entries of a log ask for objects or answer for them.  An object is
unanswered when it was asked for and no later entry answers.  A log is settled
at the entries of a kind when nothing before such an entry is unanswered.
-/

namespace Requests

variable {Entry Object : Type}

/-- What the entries of a log mean. -/
structure Reading (Entry Object : Type) where
  asks : Entry → Object → Prop
  answers : Entry → Object → Prop

variable {reading : Reading Entry Object} {log entries : List Entry}
  {entry : Entry} {object : Object} {claims : Entry → Prop}

def Unanswered (reading : Reading Entry Object) (log : List Entry)
    (object : Object) : Prop :=
  ∃ earlier entry later, log = earlier ++ entry :: later ∧
    reading.asks entry object ∧
    ∀ reply ∈ later, ¬reading.answers reply object

def SettledAt (reading : Reading Entry Object) (claims : Entry → Prop)
    (log : List Entry) : Prop :=
  ∀ earlier entry later, log = earlier ++ entry :: later → claims entry →
    ∀ object, ¬Unanswered reading earlier object

theorem not_unanswered_nil : ¬Unanswered reading [] object := by
  rintro ⟨earlier, entry, later, split, _⟩
  cases earlier <;> cases split

theorem unanswered_concat :
    Unanswered reading (log ++ [entry]) object ↔
      reading.asks entry object ∨
        (Unanswered reading log object ∧ ¬reading.answers entry object) := by
  constructor
  · rintro ⟨earlier, asking, later, split, asks, unanswered⟩
    rcases List.eq_nil_or_concat later with rfl | ⟨before, last, rfl⟩
    · left
      obtain ⟨_, same⟩ := List.append_inj' split rfl
      cases same
      exact asks
    · right
      rw [List.concat_eq_append] at split unanswered
      rw [← List.cons_append, ← List.append_assoc] at split
      obtain ⟨front, same⟩ := List.append_inj' split rfl
      cases same
      exact ⟨⟨earlier, asking, before, front, asks, fun reply member =>
          unanswered reply (List.mem_append_left _ member)⟩,
        unanswered entry (by simp)⟩
  · rintro (asks | ⟨⟨earlier, asking, later, rfl, asks, unanswered⟩, silent⟩)
    · exact ⟨log, entry, [], rfl, asks, by simp⟩
    · refine ⟨earlier, asking, later ++ [entry], by simp, asks, ?_⟩
      intro reply member
      rcases List.mem_append.mp member with old | new
      · exact unanswered reply old
      · rw [List.mem_singleton.mp new]
        exact silent

/-- What is unanswered after more entries was asked for by one of them, or
before them and answered by none. -/
theorem Unanswered.of_append
    (unanswered : Unanswered reading (log ++ entries) object) :
    (∃ entry ∈ entries, reading.asks entry object) ∨
      (Unanswered reading log object ∧
        ∀ entry ∈ entries, ¬reading.answers entry object) := by
  induction entries using List.reverseRecOn with
  | nil =>
      rw [List.append_nil] at unanswered
      exact .inr ⟨unanswered, by simp⟩
  | append_singleton entries entry ih =>
      rw [← List.append_assoc, unanswered_concat] at unanswered
      rcases unanswered with asks | ⟨before, silent⟩
      · exact .inl ⟨entry, by simp, asks⟩
      · rcases ih before with ⟨asking, member, asks⟩ | ⟨old, silentBefore⟩
        · exact .inl ⟨asking, List.mem_append_left _ member, asks⟩
        · refine .inr ⟨old, ?_⟩
          intro reply member
          rcases List.mem_append.mp member with first | last
          · exact silentBefore reply first
          · rw [List.mem_singleton.mp last]
            exact silent

theorem settledAt_nil : SettledAt reading claims [] := by
  intro earlier entry later split
  cases earlier <;> cases split

theorem SettledAt.concat (settled : SettledAt reading claims log)
    (last : claims entry → ∀ object, ¬Unanswered reading log object) :
    SettledAt reading claims (log ++ [entry]) := by
  intro earlier claiming later split claimed
  rcases List.eq_nil_or_concat later with rfl | ⟨before, final, rfl⟩
  · obtain ⟨rfl, same⟩ := List.append_inj' split rfl
    cases same
    exact last claimed
  · rw [List.concat_eq_append, ← List.cons_append, ← List.append_assoc]
      at split
    obtain ⟨front, _⟩ := List.append_inj' split rfl
    exact settled earlier claiming before front claimed

theorem SettledAt.append (settled : SettledAt reading claims log)
    (silent : ∀ entry ∈ entries, ¬claims entry) :
    SettledAt reading claims (log ++ entries) := by
  induction entries using List.reverseRecOn with
  | nil =>
      rw [List.append_nil]
      exact settled
  | append_singleton entries entry ih =>
      rw [← List.append_assoc]
      apply (ih fun other member =>
        silent other (List.mem_append_left _ member)).concat
      intro claimed
      exact absurd claimed (silent entry (by simp))

end Requests

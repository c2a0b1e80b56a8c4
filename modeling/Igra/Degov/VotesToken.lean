import Igra.Degov.TokenHandler

/-!
# The token

An ERC20 token whose holders delegate their votes, or an ERC721 token of which
each id carries one.  A call emits its own event, and then one for each
delegate whose votes it changes, in the order of the OpenZeppelin contracts.  A
call that reverts emits nothing and is not part of a history.
-/

open Tables

namespace Degov

/-- An address that can hold tokens and make calls. -/
abbrev Account := { address : Address // address ≠ zeroAddress }

structure VotesToken where
  balances : Table Address Nat
  delegates : Table Address Address
  /-- who has the ids of an ERC721 token -/
  owners : Table Nat Address
  undelegated : delegates.lookup zeroAddress = none

/-- The amount is the id of the token for the standard erc721. -/
inductive Call where
  | mint (account : Account) (amount : Nat)
  | burn (account : Account) (amount : Nat)
  | transfer (sender receiver : Account) (amount : Nat)
  | delegate (account : Account) (delegatee : Address)
deriving DecidableEq

/-- What a call moves from one address to another, where the zero address
stands for minting and burning. -/
def Call.moved : Call → Option (Address × Address × Nat)
  | .mint account amount => some (zeroAddress, account, amount)
  | .burn account amount => some (account, zeroAddress, amount)
  | .transfer sender receiver amount => some (sender, receiver, amount)
  | .delegate _ _ => none

/-- The votes that go with an amount, or with the id of an ERC721 token. -/
def unitsOf (standard : Option String) (value : Nat) : Nat :=
  if TokenHandler.isErc721 standard then 1 else value

theorem movedPower_eq_unitsOf (standard : Option String) (value : Nat) :
    TokenHandler.movedPower standard value = unitsOf standard value := by
  unfold TokenHandler.movedPower unitsOf
  split
  · rfl
  · rfl

namespace VotesToken

def empty : VotesToken where
  balances := ∅
  delegates := ∅
  owners := ∅
  undelegated := AList.lookup_empty _

section Operations

variable (token : VotesToken)

def balanceOf (account : Address) : Nat :=
  (token.balances.lookup account).getD 0

def delegateOf (account : Address) : Address :=
  (token.delegates.lookup account).getD zeroAddress

/-- What a holder's tokens add to the votes of an account. -/
def votesFrom (account holder : Address) (amount : Nat) : Int :=
  if account = token.delegateOf holder then amount else 0

/-- The balances of the accounts that delegate to an account.  The zero address
has no votes. -/
def votes (account : Address) : Int :=
  if account = zeroAddress then 0
  else total (token.votesFrom account) token.balances

def setBalance (account : Address) (amount : Nat) : VotesToken :=
  { token with balances := token.balances.insert account amount }

def setDelegate (account : Account) (delegatee : Address) : VotesToken where
  balances := token.balances
  delegates := token.delegates.insert account delegatee
  owners := token.owners
  undelegated := by
    rw [AList.lookup_insert_ne account.property.symm]
    exact token.undelegated

def debit (account : Address) (value : Nat) : Option VotesToken :=
  if account = zeroAddress then some token
  else if value ≤ token.balanceOf account then
    some (token.setBalance account (token.balanceOf account - value))
  else none

def credit (account : Address) (value : Nat) : VotesToken :=
  if account = zeroAddress then token
  else token.setBalance account (token.balanceOf account + value)

/-- An id that nobody has is at the zero address. -/
def ownerOf (id : Nat) : Address :=
  (token.owners.lookup id).getD zeroAddress

def setOwner (standard : Option String) (id : Nat) (account : Address) :
    VotesToken :=
  if TokenHandler.isErc721 standard then
    { token with owners := token.owners.insert id account }
  else token

/-- Tokens come from and go to the zero address when they are minted and
burned. -/
def update (standard : Option String) (fromAccount toAccount : Address)
    (value : Nat) : Option VotesToken :=
  if TokenHandler.isErc721 standard = true →
      token.ownerOf value = fromAccount then
    (token.debit fromAccount (unitsOf standard value)).map fun debited =>
      (debited.credit toAccount (unitsOf standard value)).setOwner standard
        value toAccount
  else none

def moveDelegateVotes (fromDelegate toDelegate : Address) (amount : Nat) :
    List TokenEvent :=
  if fromDelegate ≠ toDelegate ∧ 0 < amount then
    (if fromDelegate ≠ zeroAddress then
      [.delegateVotesChanged fromDelegate (token.votes fromDelegate)
        (token.votes fromDelegate - amount)]
    else []) ++
    if toDelegate ≠ zeroAddress then
      [.delegateVotesChanged toDelegate (token.votes toDelegate)
        (token.votes toDelegate + amount)]
    else []
  else []

/-- The token and its events after tokens have moved. -/
def move (standard : Option String) (fromAccount toAccount : Address)
    (value : Nat) : Option (VotesToken × List TokenEvent) := do
  let next ← token.update standard fromAccount toAccount value
  some (next, .transfer fromAccount toAccount value ::
    token.moveDelegateVotes (token.delegateOf fromAccount)
      (token.delegateOf toAccount) (unitsOf standard value))

def execute (standard : Option String) :
    Call → Option (VotesToken × List TokenEvent)
  | .mint account amount => token.move standard zeroAddress account amount
  | .burn account amount => token.move standard account zeroAddress amount
  | .transfer sender receiver amount =>
      token.move standard sender receiver amount
  | .delegate account delegatee =>
      some (token.setDelegate account delegatee,
        .delegateChanged account (token.delegateOf account) delegatee ::
          token.moveDelegateVotes (token.delegateOf account) delegatee
            (token.balanceOf account))

end Operations

variable {standard : Option String} {token next : VotesToken}

@[simp] theorem delegateOf_zeroAddress :
    token.delegateOf zeroAddress = zeroAddress := by
  rw [delegateOf, token.undelegated]
  rfl

@[simp] theorem votes_zeroAddress : token.votes zeroAddress = 0 := if_pos rfl

theorem balanceOf_setBalance (holder account : Address) (amount : Nat) :
    (token.setBalance holder amount).balanceOf account =
      if account = holder then amount else token.balanceOf account := by
  unfold balanceOf setBalance
  by_cases same : account = holder
  · subst same
    rw [if_pos rfl, AList.lookup_insert]
    rfl
  · rw [if_neg same, AList.lookup_insert_ne same]

theorem delegateOf_setDelegate (holder : Account)
    (delegatee account : Address) :
    (token.setDelegate holder delegatee).delegateOf account =
      if account = holder then delegatee else token.delegateOf account := by
  unfold delegateOf setDelegate
  by_cases same : account = holder
  · subst same
    rw [if_pos rfl, AList.lookup_insert]
    rfl
  · rw [if_neg same, AList.lookup_insert_ne same]

section Votes

variable {account : Address}

theorem valueAt_votesFrom (other : VotesToken) (holder : Address) :
    valueAt (other.votesFrom account) token.balances holder =
      other.votesFrom account holder (token.balanceOf holder) := by
  unfold valueAt balanceOf
  cases token.balances.lookup holder with
  | none => exact (ite_self _).symm
  | some amount => rfl

theorem votes_setBalance (nonzero : account ≠ zeroAddress)
    (holder : Address) (amount : Nat) :
    (token.setBalance holder amount).votes account =
      token.votes account -
        token.votesFrom account holder (token.balanceOf holder) +
        token.votesFrom account holder amount := by
  unfold votes
  rw [if_neg nonzero, if_neg nonzero, ← valueAt_votesFrom token holder]
  exact total_insert holder amount

theorem votes_setDelegate (nonzero : account ≠ zeroAddress)
    (holder : Account) (delegatee : Address) :
    (token.setDelegate holder delegatee).votes account =
      token.votes account -
        token.votesFrom account holder (token.balanceOf holder) +
        if account = delegatee then (token.balanceOf holder : Int) else 0 := by
  have after : (token.setDelegate holder delegatee).votesFrom account holder
      (token.balanceOf holder) =
        if account = delegatee then (token.balanceOf holder : Int) else 0 := by
    rw [votesFrom, delegateOf_setDelegate, if_pos rfl]
  unfold votes
  rw [if_neg nonzero, if_neg nonzero, ← after, ← valueAt_votesFrom,
    ← valueAt_votesFrom]
  apply total_eq_of_agree_off
  intro another amount different _
  rw [votesFrom, delegateOf_setDelegate, if_neg different]
  rfl

theorem votes_nonneg (account : Address) : 0 ≤ token.votes account := by
  unfold votes
  split
  · rfl
  · apply List.sum_nonneg
    intro sent member
    obtain ⟨entry, _, rfl⟩ := List.mem_map.mp member
    unfold votesFrom
    split
    · exact Int.natCast_nonneg _
    · rfl

end Votes

section Moves

variable {account fromAccount toAccount : Address} {value : Nat}

theorem debit_eq_some (debited : token.debit fromAccount value = some next) :
    fromAccount = zeroAddress ∧ token = next ∨
      value ≤ token.balanceOf fromAccount ∧
        token.setBalance fromAccount (token.balanceOf fromAccount - value) =
          next := by
  unfold debit at debited
  split at debited
  · rename_i isZero
    exact .inl ⟨isZero, Option.some.inj debited⟩
  · split at debited
    · rename_i enough
      exact .inr ⟨enough, Option.some.inj debited⟩
    · cases debited

theorem delegates_debit (debited : token.debit fromAccount value = some next) :
    next.delegates = token.delegates := by
  rcases debit_eq_some debited with ⟨_, rfl⟩ | ⟨_, rfl⟩
  · rfl
  · rfl

private theorem delegates_credit :
    (token.credit toAccount value).delegates = token.delegates := by
  unfold credit
  split
  · rfl
  · rfl

private theorem balanceOf_debit (nonzero : account ≠ zeroAddress)
    (debited : token.debit fromAccount value = some next) :
    (next.balanceOf account : Int) =
      token.balanceOf account -
        if account = fromAccount then (value : Int) else 0 := by
  rcases debit_eq_some debited with ⟨isZero, rfl⟩ | ⟨enough, rfl⟩
  · rw [if_neg (isZero ▸ nonzero), sub_zero]
  · rw [balanceOf_setBalance]
    split
    · rename_i same
      rw [same]
      omega
    · rw [sub_zero]

theorem balanceOf_credit (nonzero : account ≠ zeroAddress) :
    ((token.credit toAccount value).balanceOf account : Int) =
      token.balanceOf account +
        if account = toAccount then (value : Int) else 0 := by
  unfold credit
  split
  · rename_i isZero
    rw [if_neg (isZero ▸ nonzero), add_zero]
  · rw [balanceOf_setBalance]
    split
    · rename_i same
      rw [same]
      rfl
    · rw [add_zero]

theorem delegates_setOwner (id : Nat) (account : Address) :
    (token.setOwner standard id account).delegates = token.delegates := by
  unfold setOwner
  split
  · rfl
  · rfl

theorem balances_setOwner (id : Nat) (account : Address) :
    (token.setOwner standard id account).balances = token.balances := by
  unfold setOwner
  split
  · rfl
  · rfl

private theorem balanceOf_setOwner (id : Nat) (owner : Address) :
    (token.setOwner standard id owner).balanceOf = token.balanceOf := by
  unfold balanceOf
  rw [balances_setOwner]

private theorem votes_setOwner (id : Nat) (owner : Address) :
    (token.setOwner standard id owner).votes = token.votes := by
  have sameVotes : (token.setOwner standard id owner).votesFrom =
      token.votesFrom := by
    unfold votesFrom delegateOf
    rw [delegates_setOwner]
  unfold votes
  rw [balances_setOwner, sameVotes]

theorem update_eq_some
    (updated : token.update standard fromAccount toAccount value =
      some next) :
    ∃ debited,
      token.debit fromAccount (unitsOf standard value) = some debited ∧
        (debited.credit toAccount (unitsOf standard value)).setOwner standard
          value toAccount = next := by
  unfold update at updated
  split at updated
  · exact Option.map_eq_some_iff.mp updated
  · cases updated

/-- The zero address delegates to nobody. -/
theorem votesFrom_zeroAddress (nonzero : account ≠ zeroAddress) :
    token.votesFrom account zeroAddress value = 0 := by
  rw [votesFrom, delegateOf_zeroAddress, if_neg nonzero]

private theorem votes_debit (nonzero : account ≠ zeroAddress)
    (debited : token.debit fromAccount value = some next) :
    next.votes account =
      token.votes account - token.votesFrom account fromAccount value := by
  rcases debit_eq_some debited with ⟨isZero, rfl⟩ | ⟨enough, rfl⟩
  · rw [isZero, votesFrom_zeroAddress nonzero, sub_zero]
  · rw [votes_setBalance nonzero]
    unfold votesFrom
    split
    · omega
    · omega

private theorem votes_credit (nonzero : account ≠ zeroAddress) :
    (token.credit toAccount value).votes account =
      token.votes account + token.votesFrom account toAccount value := by
  unfold credit
  split
  · rename_i isZero
    rw [isZero, votesFrom_zeroAddress nonzero, add_zero]
  · rw [votes_setBalance nonzero]
    unfold votesFrom
    split
    · omega
    · omega

theorem delegateOf_update
    (updated : token.update standard fromAccount toAccount value =
      some next) :
    next.delegateOf = token.delegateOf := by
  obtain ⟨debited, debits, rfl⟩ := update_eq_some updated
  unfold delegateOf
  rw [delegates_setOwner, delegates_credit, delegates_debit debits]

private theorem balanceOf_update (nonzero : account ≠ zeroAddress)
    (updated : token.update standard fromAccount toAccount value =
      some next) :
    (next.balanceOf account : Int) =
      token.balanceOf account -
        (if account = fromAccount then (unitsOf standard value : Int)
          else 0) +
        if account = toAccount then (unitsOf standard value : Int) else 0 := by
  obtain ⟨debited, debits, rfl⟩ := update_eq_some updated
  rw [balanceOf_setOwner, balanceOf_credit nonzero,
    balanceOf_debit nonzero debits]

theorem votes_update (nonzero : account ≠ zeroAddress)
    (updated : token.update standard fromAccount toAccount value =
      some next) :
    next.votes account =
      token.votes account -
          token.votesFrom account fromAccount (unitsOf standard value) +
        token.votesFrom account toAccount (unitsOf standard value) := by
  obtain ⟨debited, debits, rfl⟩ := update_eq_some updated
  have sameDelegates : debited.votesFrom account = token.votesFrom account := by
    unfold votesFrom delegateOf
    rw [delegates_debit debits]
  rw [votes_setOwner, votes_credit nonzero, votes_debit nonzero debits,
    sameDelegates]

end Moves

section Sends

variable {account delegate : Address}

/-- What an account sends to a delegate. -/
def sends (token : VotesToken) (account delegate : Address) : Int :=
  token.votesFrom delegate account (token.balanceOf account)

theorem sends_nonneg : 0 ≤ token.sends account delegate := by
  unfold sends votesFrom
  split
  · exact Int.natCast_nonneg _
  · rfl

theorem sends_update (nonzero : delegate ≠ zeroAddress)
    {fromAccount toAccount : Address} {value : Nat}
    (updated : token.update standard fromAccount toAccount value =
      some next) :
    next.sends account delegate =
      token.sends account delegate +
        if delegate = token.delegateOf account then
          (if account = toAccount then (unitsOf standard value : Int)
            else 0) -
            if account = fromAccount then (unitsOf standard value : Int)
            else 0
        else 0 := by
  unfold sends votesFrom
  rw [delegateOf_update updated]
  by_cases sendsTo : delegate = token.delegateOf account
  · have holds : account ≠ zeroAddress := by
      rintro rfl
      rw [delegateOf_zeroAddress] at sendsTo
      exact nonzero sendsTo
    rw [if_pos sendsTo, if_pos sendsTo, if_pos sendsTo,
      balanceOf_update holds updated]
    omega
  · rw [if_neg sendsTo, if_neg sendsTo, if_neg sendsTo, add_zero]

theorem sends_setDelegate (holder : Account) (delegatee : Address) :
    (token.setDelegate holder delegatee).sends account delegate =
      token.sends account delegate +
        if account = holder then
          (if delegate = delegatee then (token.balanceOf holder : Int)
            else 0) -
            if delegate = token.delegateOf holder then
              (token.balanceOf holder : Int)
            else 0
        else 0 := by
  have sameBalance : (token.setDelegate holder delegatee).balanceOf account =
      token.balanceOf account := rfl
  unfold sends votesFrom
  rw [delegateOf_setDelegate, sameBalance]
  by_cases isHolder : account = holder
  · rw [if_pos isHolder, if_pos isHolder, isHolder]
    omega
  · rw [if_neg isHolder, if_neg isHolder, add_zero]

end Sends

section Events

/-- What an event says an account's votes have grown by. -/
def votesGained (account : Address) : TokenEvent → Int
  | .delegateVotesChanged delegate previousVotes newVotes =>
      if account = delegate then newVotes - previousVotes else 0
  | _ => 0

/-- The event is about the votes of a delegate other than the zero address. -/
def ChangesVotes (event : TokenEvent) : Prop :=
  ∃ delegate previousVotes newVotes,
    delegate ≠ zeroAddress ∧
      event = .delegateVotesChanged delegate previousVotes newVotes

theorem changesVotes_moveDelegateVotes (fromDelegate toDelegate : Address)
    (amount : Nat) :
    ∀ event ∈ token.moveDelegateVotes fromDelegate toDelegate amount,
      ChangesVotes event := by
  intro event member
  unfold moveDelegateVotes at member
  split at member
  · rcases List.mem_append.mp member with sent | received
    · split at sent
      · rename_i nonzero
        exact ⟨_, _, _, nonzero, List.mem_singleton.mp sent⟩
      · cases sent
    · split at received
      · rename_i nonzero
        exact ⟨_, _, _, nonzero, List.mem_singleton.mp received⟩
      · cases received
  · cases member

/-- The votes of the new delegate change last. -/
theorem moveDelegateVotes_last {fromDelegate toDelegate : Address}
    {amount : Nat} (nonzero : toDelegate ≠ zeroAddress)
    (changes : token.moveDelegateVotes fromDelegate toDelegate amount ≠ []) :
    ∃ front previousVotes newVotes,
      token.moveDelegateVotes fromDelegate toDelegate amount =
        front ++ [.delegateVotesChanged toDelegate previousVotes newVotes] := by
  unfold moveDelegateVotes at changes ⊢
  by_cases moves : fromDelegate ≠ toDelegate ∧ 0 < amount
  · rw [if_pos moves, if_pos nonzero]
    exact ⟨_, _, _, rfl⟩
  · rw [if_neg moves] at changes
    exact absurd rfl changes

theorem votesGained_zeroAddress {event : TokenEvent}
    (changes : ChangesVotes event) : votesGained zeroAddress event = 0 := by
  obtain ⟨delegate, previousVotes, newVotes, nonzero, rfl⟩ := changes
  exact if_neg nonzero.symm

theorem sum_votesGained_zeroAddress {α : Type} {event : α → TokenEvent}
    {logs : List α} (changes : ∀ log ∈ logs, ChangesVotes (event log)) :
    ((logs.map event).map (votesGained zeroAddress)).sum = 0 := by
  apply List.sum_eq_zero
  intro gained member
  obtain ⟨_, isEvent, rfl⟩ := List.mem_map.mp member
  obtain ⟨log, isLog, rfl⟩ := List.mem_map.mp isEvent
  exact votesGained_zeroAddress (changes log isLog)

theorem delegate_of_mem_moveDelegateVotes
    {fromDelegate toDelegate delegate : Address} {amount : Nat}
    {previousVotes newVotes : Int}
    (member : .delegateVotesChanged delegate previousVotes newVotes ∈
      token.moveDelegateVotes fromDelegate toDelegate amount) :
    delegate = fromDelegate ∨ delegate = toDelegate := by
  unfold moveDelegateVotes at member
  split at member
  · rcases List.mem_append.mp member with sent | received
    · split at sent
      · cases List.mem_singleton.mp sent
        exact .inl rfl
      · cases sent
    · split at received
      · cases List.mem_singleton.mp received
        exact .inr rfl
      · cases received
  · cases member

theorem votesGained_side {account : Address} (nonzero : account ≠ zeroAddress)
    (delegate : Address) (previousVotes newVotes : Int) :
    ((if delegate ≠ zeroAddress then
        [TokenEvent.delegateVotesChanged delegate previousVotes newVotes]
      else []).map (votesGained account)).sum =
      if account = delegate then newVotes - previousVotes else 0 := by
  split
  · simp [votesGained]
  · rename_i isZero
    rw [not_not] at isZero
    rw [isZero, if_neg nonzero]
    rfl

theorem votesGained_moveDelegateVotes (fromDelegate toDelegate : Address)
    (amount : Nat) {account : Address} (nonzero : account ≠ zeroAddress) :
    ((token.moveDelegateVotes fromDelegate toDelegate amount).map
        (votesGained account)).sum =
      (if account = toDelegate then (amount : Int) else 0) -
        if account = fromDelegate then (amount : Int) else 0 := by
  unfold moveDelegateVotes
  by_cases moves : fromDelegate ≠ toDelegate ∧ 0 < amount
  · rw [if_pos moves, List.map_append, List.sum_append,
      votesGained_side nonzero, votesGained_side nonzero]
    by_cases isFrom : account = fromDelegate
    · have notTo : account ≠ toDelegate := isFrom ▸ moves.1
      rw [if_pos isFrom, if_pos isFrom, if_neg notTo, if_neg notTo]
      omega
    · rw [if_neg isFrom, if_neg isFrom, zero_add, sub_zero, add_sub_cancel_left]
  · rw [if_neg moves]
    by_cases same : fromDelegate = toDelegate
    · rw [same, sub_self]
      rfl
    · have nothing : amount = 0 := by
        by_contra some
        exact moves ⟨same, Nat.pos_of_ne_zero some⟩
      simp [nothing]

/-- A call moves tokens or changes a delegate. -/
theorem execute_eq_some {call : Call} {events : List TokenEvent}
    (executed : token.execute standard call = some (next, events)) :
    (∃ fromAccount toAccount value,
      call.moved = some (fromAccount, toAccount, value) ∧
        token.update standard fromAccount toAccount value = some next ∧
        events = .transfer fromAccount toAccount value ::
          token.moveDelegateVotes (token.delegateOf fromAccount)
            (token.delegateOf toAccount) (unitsOf standard value)) ∨
      ∃ account delegatee,
        call = .delegate account delegatee ∧
          next = token.setDelegate account delegatee ∧
          events =
            .delegateChanged account (token.delegateOf account) delegatee ::
              token.moveDelegateVotes (token.delegateOf account) delegatee
                (token.balanceOf account) := by
  have moves {fromAccount toAccount : Address} {value : Nat}
      (moved : token.move standard fromAccount toAccount value =
        some (next, events)) :
      token.update standard fromAccount toAccount value = some next ∧
        events = .transfer fromAccount toAccount value ::
          token.moveDelegateVotes (token.delegateOf fromAccount)
            (token.delegateOf toAccount) (unitsOf standard value) := by
    obtain ⟨updated, updates, rest⟩ := Option.bind_eq_some_iff.mp moved
    cases rest
    exact ⟨updates, rfl⟩
  cases call with
  | mint account amount => exact .inl ⟨_, _, _, rfl, moves executed⟩
  | burn account amount => exact .inl ⟨_, _, _, rfl, moves executed⟩
  | transfer sender receiver amount =>
      exact .inl ⟨_, _, _, rfl, moves executed⟩
  | delegate account delegatee =>
      cases executed
      exact .inr ⟨account, delegatee, rfl, rfl, rfl⟩

/-- The events of a call account for all changes of votes. -/
theorem votes_execute {call : Call} {events : List TokenEvent}
    (executed : token.execute standard call = some (next, events))
    {account : Address} (nonzero : account ≠ zeroAddress) :
    next.votes account =
      token.votes account + (events.map (votesGained account)).sum := by
  rcases execute_eq_some executed with
    ⟨fromAccount, toAccount, value, _, updated, rfl⟩ |
      ⟨holder, delegatee, _, rfl, rfl⟩
  · rw [votes_update nonzero updated, List.map_cons, List.sum_cons,
      votesGained_moveDelegateVotes _ _ _ nonzero]
    dsimp only [votesFrom, votesGained]
    omega
  · rw [votes_setDelegate nonzero, List.map_cons, List.sum_cons,
      votesGained_moveDelegateVotes _ _ _ nonzero]
    dsimp only [votesFrom, votesGained]
    omega

end Events

end VotesToken

end Degov

import Igra.Degov.AttestationHandler
import Igra.Degov.SingleCalls

/-!
# Histories of the token and of stakes

The transactions of the token and the events of stakes come in any order and
are booked to the same contributors, records and global row.  A contributor has
the votes and the stake of its account as long as an attester that unregisters
has no votes, since all that it has is taken away then.
-/

open Tables

namespace Degov

abbrev Stakes := Table Address Nat

namespace Stakes

variable {stakes next : Stakes}

def stakeOf (stakes : Stakes) (attester : Address) : Nat :=
  (stakes.lookup attester).getD 0

def setStake (stakes : Stakes) (attester : Address) (amount : Nat) : Stakes :=
  stakes.insert attester amount

def withdraw (stakes : Stakes) (attester : Address) (amount : Nat) :
    Option Stakes :=
  if amount ≤ stakes.stakeOf attester then
    some (stakes.setStake attester (stakes.stakeOf attester - amount))
  else none

/-- The stakes after an event, unless one would be negative. -/
def after (stakes : Stakes) : AttestationEvent → Option Stakes
  | .attesterRegistered attester stakeAmount _ =>
      some (stakes.setStake attester (stakes.stakeOf attester + stakeAmount))
  | .attesterUnregistered attester _ _ => some (stakes.setStake attester 0)
  | .stakeIncreased attester additionalStakeAmount =>
      some (stakes.setStake attester
        (stakes.stakeOf attester + additionalStakeAmount))
  | .stakeDecreased attester decreasedStakeAmount =>
      stakes.withdraw attester decreasedStakeAmount
  | .penalized attester _ penaltyAmount _ _ =>
      stakes.withdraw attester penaltyAmount
  | .slashed attester _ slashAmount _ _ =>
      stakes.withdraw attester slashAmount
  | .forceExitInitiated _ _ _ => some stakes

theorem stakeOf_setStake (attester account : Address) (amount : Nat) :
    (stakes.setStake attester amount).stakeOf account =
      if account = attester then amount else stakes.stakeOf account := by
  unfold stakeOf setStake
  by_cases same : account = attester
  · subst same
    rw [if_pos rfl, AList.lookup_insert]
    rfl
  · rw [if_neg same, AList.lookup_insert_ne same]

theorem stakeOf_withdraw {attester : Address} {amount : Nat}
    (withdrawn : stakes.withdraw attester amount = some next)
    (account : Address) :
    (next.stakeOf account : Int) =
      stakes.stakeOf account +
        if account = attester then -(amount : Int) else 0 := by
  unfold withdraw at withdrawn
  split at withdrawn
  · cases withdrawn
    rw [stakeOf_setStake]
    split
    · rename_i same
      rw [same]
      omega
    · rw [add_zero]
  · cases withdrawn

theorem stakeOf_after_of_ne {event : AttestationEvent}
    (moved : stakes.after event = some next) {account : Address}
    (other : account ≠ event.attester) :
    next.stakeOf account = stakes.stakeOf account := by
  have withdrawn {attester : Address} {amount : Nat}
      (withdraws : stakes.withdraw attester amount = some next)
      (different : account ≠ attester) :
      next.stakeOf account = stakes.stakeOf account := by
    have moves := stakeOf_withdraw withdraws account
    rw [if_neg different] at moves
    omega
  cases event with
  | attesterRegistered attester stakeAmount activationBlock =>
      cases moved
      rw [stakeOf_setStake]
      exact if_neg other
  | attesterUnregistered attester receiver effectiveStakeAmount =>
      cases moved
      rw [stakeOf_setStake]
      exact if_neg other
  | stakeIncreased attester additionalStakeAmount =>
      cases moved
      rw [stakeOf_setStake]
      exact if_neg other
  | stakeDecreased attester decreasedStakeAmount =>
      exact withdrawn moved other
  | penalized attester challenger penaltyAmount challengerReward reason =>
      exact withdrawn moved other
  | slashed attester challenger slashAmount challengerReward reason =>
      exact withdrawn moved other
  | forceExitInitiated attester effectiveBalance exitBlock =>
      cases moved
      rfl

/-- An event books what it moves, provided that an attester that unregisters
holds its stake and no more. -/
theorem stakeOf_after {event : AttestationEvent} {store : Store}
    (moved : stakes.after event = some next)
    (whole : ∀ attester receiver effectiveStakeAmount,
      event = .attesterUnregistered attester receiver effectiveStakeAmount →
        store.powerOf attester = stakes.stakeOf attester) :
    (next.stakeOf event.attester : Int) - stakes.stakeOf event.attester =
      AttestationHandler.powerDelta store event := by
  have withdrawn {attester : Address} {amount : Nat}
      (withdraws : stakes.withdraw attester amount = some next) :
      (next.stakeOf attester : Int) - stakes.stakeOf attester =
        -(amount : Int) := by
    have moves := stakeOf_withdraw withdraws attester
    rw [if_pos rfl] at moves
    omega
  cases event with
  | attesterRegistered attester stakeAmount activationBlock =>
      cases moved
      dsimp only [AttestationEvent.attester, AttestationHandler.powerDelta]
      rw [stakeOf_setStake, if_pos rfl]
      omega
  | attesterUnregistered attester receiver effectiveStakeAmount =>
      cases moved
      dsimp only [AttestationEvent.attester, AttestationHandler.powerDelta]
      rw [stakeOf_setStake, if_pos rfl, whole _ _ _ rfl]
      omega
  | stakeIncreased attester additionalStakeAmount =>
      cases moved
      dsimp only [AttestationEvent.attester, AttestationHandler.powerDelta]
      rw [stakeOf_setStake, if_pos rfl]
      omega
  | stakeDecreased attester decreasedStakeAmount => exact withdrawn moved
  | penalized attester challenger penaltyAmount challengerReward reason =>
      exact withdrawn moved
  | slashed attester challenger slashAmount challengerReward reason =>
      exact withdrawn moved
  | forceExitInitiated attester effectiveBalance exitBlock =>
      cases moved
      exact sub_self _

end Stakes

/-- The token with the indexer's store, and the stakes. -/
structure StakingSystem where
  tokens : TokenSystem
  stakes : Stakes

/-- What happens next: a transaction of the token, or an event of a stake. -/
inductive Happening where
  | transaction (transaction : Transaction)
  | stake (log : EvmLog AttestationEvent)

namespace StakingSystem

def initial : StakingSystem := ⟨.initial, ∅⟩

/-- The attester, which has made a call, is not the zero address. -/
inductive Advances (standard : Option String) :
    StakingSystem → Happening → StakingSystem → Prop where
  | transaction {tokens next : TokenSystem} {stakes : Stakes}
      {transaction : Transaction}
      (transacts : tokens.Transacts standard (fun _ _ _ => True) transaction
        next) :
      Advances standard ⟨tokens, stakes⟩ (.transaction transaction)
        ⟨next, stakes⟩
  | stake {tokens : TokenSystem} {stakes next : Stakes}
      {log : EvmLog AttestationEvent}
      (calls : log.event.attester ≠ zeroAddress)
      (moved : stakes.after log.event = some next) :
      Advances standard ⟨tokens, stakes⟩ (.stake log)
        ⟨{ tokens with
            store := AttestationHandler.handle tokens.store log }, next⟩

/-- An attester that unregisters has no votes. -/
def Unvoted (token : VotesToken) : AttestationEvent → Prop
  | .attesterUnregistered attester _ _ => token.votes attester = 0
  | _ => True

/-- A transaction makes one call, under a condition, and so do events. -/
def Meets (calls : VotesToken → Store → Call → Prop)
    (events : VotesToken → AttestationEvent → Prop)
    (system : StakingSystem) : Happening → Prop
  | .transaction transaction => system.tokens.MakesOne calls transaction
  | .stake log => events system.tokens.token log.event

variable {standard : Option String} {system next : StakingSystem}

section Separation

/-- The store follows the token and the stakes. -/
structure Separated (system : StakingSystem) : Prop where
  mapped : TokenSystem.Mapped system.tokens.token system.tokens.store
  balanced : TokenHandler.Balanced system.tokens.store
  hashed : system.tokens.Hashed
  records : ∀ account delegate, delegate ≠ zeroAddress →
    system.tokens.store.delegatePower account delegate =
      system.tokens.token.sends account delegate +
        if account = delegate then (system.stakes.stakeOf account : Int)
        else 0
  power : ∀ account,
    system.tokens.store.powerOf account =
      system.tokens.token.votes account + system.stakes.stakeOf account

theorem separated_initial : Separated initial where
  mapped _ := rfl
  balanced := TokenHandler.balanced_empty
  hashed := TokenSystem.hashed_initial
  records := by
    intro account delegate _
    rw [VotesToken.sends, VotesToken.votesFrom]
    split
    · split
      · rfl
      · rfl
    · split
      · rfl
      · rfl
  power := by
    intro account
    unfold VotesToken.votes
    split
    · rfl
    · rfl

theorem Separated.transacts (erc20 : TokenHandler.isErc721 standard = false)
    {tokens after : TokenSystem} {stakes : Stakes} {transaction : Transaction}
    (separated : Separated ⟨tokens, stakes⟩)
    (transacts : tokens.Transacts standard (fun _ _ _ => True) transaction
      after)
    (one : tokens.MakesOne (fun _ store call =>
      TokenSystem.BalancesUndelegated store call) transaction) :
    Separated ⟨after, stakes⟩ := by
  obtain ⟨invocation, single, evenly⟩ := one
  have invokes := transacts.single single
  have unannounced := separated.hashed.unannounced transacts.fresh
  constructor
  · exact invokes.mapped separated.mapped
  · exact TokenSystem.balanced_of_invokes invokes separated.balanced
  · exact separated.hashed.invokes invokes
  · intro account delegate nonzero
    have moved := TokenSystem.delegatePower_of_invokes invokes
      separated.mapped unannounced account nonzero
    have same := separated.records account delegate nonzero
    dsimp only at moved same ⊢
    omega
  · intro account
    have same := separated.power account
    by_cases isZero : account = zeroAddress
    · have unmoved := TokenSystem.powerOf_zeroAddress_of_invokes invokes erc20
        unannounced evenly
      rw [isZero] at same ⊢
      dsimp only at unmoved same ⊢
      rw [unmoved, same, VotesToken.votes_zeroAddress,
        VotesToken.votes_zeroAddress]
    · have moved := TokenSystem.powerOf_of_invokes
        (invokes.attributed unannounced) separated.mapped isZero
      dsimp only at moved same ⊢
      omega

section Stakes

variable {tokens : TokenSystem} {stakes after : Stakes}
  {log : EvmLog AttestationEvent}

/-- An event books what it moves. -/
theorem Separated.booked (separated : Separated ⟨tokens, stakes⟩)
    (moved : stakes.after log.event = some after)
    (unvoted : Unvoted tokens.token log.event) :
    (after.stakeOf log.event.attester : Int) -
        stakes.stakeOf log.event.attester =
      AttestationHandler.powerDelta tokens.store log.event := by
  apply Stakes.stakeOf_after moved
  intro attester receiver effectiveStakeAmount event
  rw [event] at unvoted
  have whole := separated.power attester
  dsimp only at whole
  rw [whole, unvoted, zero_add]

/-- An amount that is taken away has been staked, so the attester's record has
power. -/
theorem Separated.backed (separated : Separated ⟨tokens, stakes⟩)
    (calls : log.event.attester ≠ zeroAddress)
    (booked : (after.stakeOf log.event.attester : Int) -
        stakes.stakeOf log.event.attester =
      AttestationHandler.powerDelta tokens.store log.event) :
    AttestationHandler.Backed tokens.store log.event.attester
      (AttestationHandler.powerDelta tokens.store log.event) := by
  intro negative
  have held := separated.records log.event.attester log.event.attester calls
  have sent := @VotesToken.sends_nonneg tokens.token log.event.attester
    log.event.attester
  rw [if_pos rfl] at held
  dsimp only at held
  rw [Option.isSome_iff_ne_none]
  intro absent
  rw [Store.delegatePower, Keyed.worthAt_of_none _ absent] at held
  omega

theorem Separated.records_handle (separated : Separated ⟨tokens, stakes⟩)
    (moved : stakes.after log.event = some after)
    (booked : (after.stakeOf log.event.attester : Int) -
        stakes.stakeOf log.event.attester =
      AttestationHandler.powerDelta tokens.store log.event)
    (backed : AttestationHandler.Backed tokens.store log.event.attester
      (AttestationHandler.powerDelta tokens.store log.event))
    (account : Address) {delegate : Address}
    (nonzero : delegate ≠ zeroAddress) :
    (AttestationHandler.handle tokens.store log).delegatePower account
        delegate =
      tokens.token.sends account delegate +
        if account = delegate then (after.stakeOf account : Int) else 0 := by
  have same := separated.records account delegate nonzero
  dsimp only at same
  rw [AttestationHandler.delegatePower_handle backed, same]
  by_cases own : account = delegate
  · by_cases isAttester : account = log.event.attester
    · rw [if_pos own, if_pos own, ← own, isAttester, if_pos rfl]
      omega
    · have other : (account, delegate) ≠
          (log.event.attester, log.event.attester) := fun both =>
        isAttester (congrArg Prod.fst both)
      rw [if_pos own, if_pos own, if_neg other, add_zero,
        Stakes.stakeOf_after_of_ne moved isAttester]
  · have other : (account, delegate) ≠
        (log.event.attester, log.event.attester) := by
      intro both
      cases both
      exact own rfl
    rw [if_neg own, if_neg own, if_neg other, add_zero]

theorem Separated.stake (separated : Separated ⟨tokens, stakes⟩)
    (calls : log.event.attester ≠ zeroAddress)
    (moved : stakes.after log.event = some after)
    (unvoted : Unvoted tokens.token log.event) :
    Separated ⟨{ tokens with
      store := AttestationHandler.handle tokens.store log }, after⟩ := by
  have booked := separated.booked moved unvoted
  have backed := separated.backed calls booked
  obtain ⟨mappings, rollings⟩ :=
    @AttestationHandler.frame_handle tokens.store log
  constructor
  · intro account
    dsimp only
    rw [Store.mappedTo, mappings]
    exact separated.mapped account
  · exact AttestationHandler.Balanced.handle separated.balanced backed
  · intro id announcement announced
    dsimp only at announced
    rw [Store.announced, rollings] at announced
    exact separated.hashed id announcement announced
  · intro account delegate nonzero
    exact separated.records_handle moved booked backed account nonzero
  · intro account
    have same := separated.power account
    dsimp only at same ⊢
    rw [AttestationHandler.powerOf_handle, same]
    by_cases isAttester : account = log.event.attester
    · rw [if_pos isAttester, isAttester]
      omega
    · rw [if_neg isAttester, add_zero,
        Stakes.stakeOf_after_of_ne moved isAttester]

end Stakes

/-- As long as an attester that unregisters has no votes, and tokens do not move
between accounts of which one is mapped to the zero address, each contributor
has the votes and the stake of its account, and so have the records to it. -/
theorem power_is_votes_and_stake
    (erc20 : TokenHandler.isErc721 standard = false)
    {happenings : List Happening}
    (run : Runs.Run
      (Runs.restrict
        (Meets (fun _ store call => TokenSystem.BalancesUndelegated store call)
          Unvoted)
        (Advances standard)) initial happenings system) :
    ∀ contributor ∈ system.tokens.store.contributors.values,
      contributor.power =
          system.tokens.token.votes contributor.id +
            system.stakes.stakeOf contributor.id ∧
        contributor.power = system.tokens.store.powerTo contributor.id := by
  have separated : Separated system := by
    apply run.preserves separated_initial
    rintro before happening after separated ⟨meets, advances⟩
    cases advances with
    | transaction transacts =>
        exact separated.transacts erc20 transacts meets
    | stake calls moved => exact separated.stake calls moved meets
  intro contributor member
  have found := (Keyed.mem_values _).mp member
  have power : system.tokens.store.powerOf contributor.id =
      contributor.power :=
    Keyed.worthAt_of_find _ found
  rw [← power, ← separated.balanced.contributors]
  exact ⟨separated.power contributor.id, rfl⟩

end Separation

section Samples

def advance (standard : Option String) (system : StakingSystem) :
    Happening → Option StakingSystem
  | .transaction transaction =>
      (system.tokens.transact standard (fun _ _ _ => True) transaction).map
        fun tokens => { system with tokens }
  | .stake log =>
      if log.event.attester = zeroAddress then none
      else (system.stakes.after log.event).map fun stakes =>
        ⟨{ system.tokens with
            store := AttestationHandler.handle system.tokens.store log },
          stakes⟩

theorem advances_of_advance {happening : Happening}
    (advanced : advance standard system happening = some next) :
    Advances standard system happening next := by
  cases happening with
  | transaction transaction =>
      obtain ⟨tokens, transacted, rfl⟩ := Option.map_eq_some_iff.mp advanced
      exact .transaction (TokenSystem.transacts_of_transact transacted)
  | stake log =>
      unfold advance at advanced
      dsimp only at advanced
      split at advanced
      · cases advanced
      · rename_i calls
        obtain ⟨stakes, moved, rfl⟩ := Option.map_eq_some_iff.mp advanced
        exact .stake calls moved

instance Unvoted.decidable (token : VotesToken) (event : AttestationEvent) :
    Decidable (Unvoted token event) :=
  match event with
  | .attesterUnregistered attester _ _ =>
      inferInstanceAs (Decidable (token.votes attester = 0))
  | .attesterRegistered _ _ _ => isTrue trivial
  | .stakeIncreased _ _ => isTrue trivial
  | .stakeDecreased _ _ => isTrue trivial
  | .penalized _ _ _ _ _ => isTrue trivial
  | .slashed _ _ _ _ _ => isTrue trivial
  | .forceExitInitiated _ _ _ => isTrue trivial

instance Meets.decidable (calls : VotesToken → Store → Call → Prop)
    (events : VotesToken → AttestationEvent → Prop)
    [∀ token store call, Decidable (calls token store call)]
    [∀ token event, Decidable (events token event)]
    (system : StakingSystem) (happening : Happening) :
    Decidable (Meets calls events system happening) :=
  match happening with
  | .transaction transaction =>
      inferInstanceAs (Decidable (system.tokens.MakesOne calls transaction))
  | .stake log =>
      inferInstanceAs (Decidable (events system.tokens.token log.event))

def sampleStake (event : AttestationEvent) : Happening :=
  .stake ⟨"s", 1, 1, "s", event⟩

/-- Two attesters register, of which one has its votes delegated to the other
and unregisters again. -/
def sampleHappenings : List Happening :=
  [sampleStake (.attesterRegistered (TokenSystem.sampleHolder 1) 10 0)] ++
    TokenSystem.sampleDelegated.map .transaction ++
    [sampleStake (.attesterRegistered (TokenSystem.sampleHolder 2) 7 0),
      sampleStake (.penalized (TokenSystem.sampleHolder 1)
        (TokenSystem.sampleHolder 3) 4 1 0),
      sampleStake (.attesterUnregistered (TokenSystem.sampleHolder 1)
        (TokenSystem.sampleHolder 1) 6)]

theorem power_is_votes_and_stake_sampleHappenings :
    ∃ system contributor,
      Runs.Run (Advances none) initial sampleHappenings system ∧
      contributor ∈ system.tokens.store.contributors.values ∧
      contributor.id = TokenSystem.sampleHolder 2 ∧
      contributor.power = 12 ∧
      contributor.power =
        system.tokens.token.votes contributor.id +
          system.stakes.stakeOf contributor.id := by
  have followed : (Runs.follow
      (Meets (fun _ store call => TokenSystem.BalancesUndelegated store call)
        Unvoted)
      (advance none) initial sampleHappenings).any fun system =>
        system.tokens.store.contributors.find (TokenSystem.sampleHolder 2) =
          some ⟨TokenSystem.sampleHolder 2, 12, 1, 1, ⟨1, 1, "s"⟩⟩ := by
    decide +kernel
  obtain ⟨system, reached, isFound⟩ := (Option.any_eq_true _ _).mp followed
  have found := of_decide_eq_true isFound
  have run := Runs.Run.of_follow (fun _ _ _ => advances_of_advance) reached
  rw [← Keyed.key_of_find _ found] at found
  have member := (Keyed.mem_values _).mpr found
  exact ⟨system, _, run.unrestrict, member, rfl, rfl,
    (power_is_votes_and_stake (by decide +kernel) run _ member).1⟩

/-- An attester that others delegate to loses their votes when it
unregisters. -/
theorem power_of_unregistered :
    ∃ happenings system contributor,
      Runs.Run
        (Runs.restrict (Meets (fun _ _ _ => True) fun _ _ => True)
          (Advances none)) initial happenings system ∧
      contributor ∈ system.tokens.store.contributors.values ∧
      contributor.power = 0 ∧
      system.tokens.token.votes contributor.id = 5 ∧
      system.stakes.stakeOf contributor.id = 0 := by
  let happenings :=
    TokenSystem.sampleDelegated.map Happening.transaction ++
      [sampleStake (.attesterRegistered (TokenSystem.sampleHolder 2) 7 0),
        sampleStake (.attesterUnregistered (TokenSystem.sampleHolder 2)
          (TokenSystem.sampleHolder 2) 7)]
  have followed : (Runs.follow (Meets (fun _ _ _ => True) fun _ _ => True)
      (advance none) initial happenings).any fun system =>
        system.tokens.store.contributors.find (TokenSystem.sampleHolder 2) =
            some ⟨TokenSystem.sampleHolder 2, 0, 1, 1, ⟨1, 1, "s"⟩⟩ ∧
          system.tokens.token.votes (TokenSystem.sampleHolder 2) = 5 ∧
          system.stakes.stakeOf (TokenSystem.sampleHolder 2) = 0 := by
    decide +kernel
  obtain ⟨system, reached, booked⟩ := (Option.any_eq_true _ _).mp followed
  obtain ⟨found, votes, stake⟩ := of_decide_eq_true booked
  have run := Runs.Run.of_follow (fun _ _ _ => advances_of_advance) reached
  rw [← Keyed.key_of_find _ found] at found
  exact ⟨happenings, system, _, run, (Keyed.mem_values _).mpr found, rfl,
    votes, stake⟩

end Samples

end StakingSystem

end Degov

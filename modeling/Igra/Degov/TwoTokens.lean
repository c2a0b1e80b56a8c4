import Igra.Degov.SingleCalls

/-!
# Two tokens

The logs of the governor token and of the igra token are handled into one
store, in which a mapping belongs to an account and not to a token.  Apart from
the mapping that a transfer goes through, a call of one token books what it
would book in a store of its own.
-/

open Tables

namespace Degov

inductive ContractName where
  | governor
  | governorToken
  | igraToken
  | attestation
deriving DecidableEq

structure IndexerContract where
  name : ContractName
  address : Address
  standard : Option String

/-- `work.contracts.find`, by the address of a log. -/
def indexContract (contracts : List IndexerContract) (address : Address) :
    Option IndexerContract :=
  contracts.find? fun item => decide (item.address = address)

/-- The contract whose token handler is given the logs of an address. -/
def tokenContract (contracts : List IndexerContract) (address : Address) :
    Option IndexerContract :=
  match indexContract contracts address with
  | none => none
  | some contract =>
      match contract.name with
      | .governor => none
      | .governorToken => some contract
      | .igraToken => some contract
      | .attestation => none

theorem indexContract_of_mem {contracts : List IndexerContract}
    (apart : (contracts.map IndexerContract.address).Nodup)
    {contract : IndexerContract} (member : contract ∈ contracts) :
    indexContract contracts contract.address = some contract := by
  induction contracts with
  | nil => cases member
  | cons first rest ih =>
      rw [List.map_cons, List.nodup_cons] at apart
      rw [indexContract, List.find?_cons]
      by_cases same : first.address = contract.address
      · have isFirst : contract = first := by
          rcases List.mem_cons.mp member with isFirst | later
          · exact isFirst
          · rw [same] at apart
            exact absurd (List.mem_map_of_mem later) apart.1
        rw [isFirst]
        simp
      · have later : contract ∈ rest := by
          rcases List.mem_cons.mp member with rfl | later
          · exact absurd rfl same
          · exact later
        rw [decide_eq_false same]
        exact ih apart.2 later

/-- The contracts that a configuration has for tokens. -/
inductive TokenName where
  | governorToken
  | igraToken
deriving DecidableEq

def TokenName.contractName : TokenName → ContractName
  | .governorToken => .governorToken
  | .igraToken => .igraToken

/-- A configuration with both tokens. -/
structure TokenContracts where
  contracts : List IndexerContract
  apart : (contracts.map IndexerContract.address).Nodup
  contractOf : TokenName → IndexerContract
  configured : ∀ name, contractOf name ∈ contracts
  named : ∀ name, (contractOf name).name = name.contractName

def TokenContracts.standard (config : TokenContracts) (name : TokenName) :
    Option String :=
  (config.contractOf name).standard

theorem TokenContracts.tokenContract_eq (config : TokenContracts)
    (name : TokenName) :
    tokenContract config.contracts (config.contractOf name).address =
      some (config.contractOf name) := by
  rw [tokenContract, indexContract_of_mem config.apart (config.configured name)]
  dsimp only
  rw [config.named name]
  cases name with
  | governorToken => rfl
  | igraToken => rfl

namespace TokenSystem

variable {standard : Option String} {system next : TokenSystem}
  {hash : String} {invocation : Invocation}
  {allowed : Call → Store → TokenHandler.Delivery → Prop}

/-- What the call of a new transaction books to an account. -/
def bookedTo (standard : Option String) (token : VotesToken) (store : Store)
    (call : Call) (account : Address) : Int :=
  match call.moved with
  | some (fromAccount, toAccount, value) =>
      (if store.mappedTo toAccount = some account then
        TokenHandler.movedPower standard value else 0) -
        if store.mappedTo fromAccount = some account then
          TokenHandler.movedPower standard value else 0
  | none =>
      (token.execute standard call).elim 0 fun (_, events) =>
        (events.map (VotesToken.votesGained account)).sum

theorem powerOf_of_booked
    (invokes : Invokes standard allowed hash system invocation next)
    (unannounced : TokenHandler.Unannounced system.store hash)
    (account : Address) :
    next.store.powerOf account =
      system.store.powerOf account +
        bookedTo standard system.token system.store invocation.call
          account := by
  have executed := invokes.executed
  obtain ⟨first, rest, booked, deliveries, taken, run, changes, call⟩ :=
    (invokes.attributed unannounced).split
  have afterRest := TokenHandler.powerOf_of_changesVotes run changes account
  have afterFirst := TokenHandler.powerOf_handle taken account
  unfold bookedTo
  rcases call with
    ⟨fromAccount, toAccount, value, moved, _, event⟩ |
      ⟨holder, delegatee, isDelegate, _, event, _⟩
  · rw [moved, if_neg (by simp), add_zero] at afterRest
    rw [afterRest, afterFirst,
      TokenHandler.sentTo_updates_transfer account event, moved]
  · have noMove : invocation.call.moved = none := by
      rw [isDelegate]
      rfl
    have noVotes : VotesToken.votesGained account first.log.event = 0 := by
      rw [event]
      rfl
    rw [if_pos noMove] at afterRest
    rw [noMove, executed, afterRest, afterFirst,
      TokenHandler.sentTo_updates_delegateChanged account event]
    unfold Invocation.events
    rw [deliveries, Option.elim_some]
    dsimp only
    rw [List.map_cons, List.map_cons, List.sum_cons, noVotes, add_zero,
      zero_add]

theorem token_of_invocations {other otherNext : TokenSystem}
    {invocations : List Invocation}
    (run : Runs.Run (Invokes standard allowed hash) system invocations next)
    (otherRun : Runs.Run (Invokes standard allowed hash) other invocations
      otherNext)
    (same : system.token = other.token) : next.token = otherNext.token := by
  induction run generalizing otherNext with
  | start =>
      rw [otherRun.eq_of_nil]
      exact same
  | extend run taken ih =>
      obtain ⟨state, otherRun, otherTaken⟩ := otherRun.last
      have executed := taken.executed
      rw [ih otherRun, otherTaken.executed] at executed
      exact (Prod.mk.inj (Option.some.inj executed)).1.symm

/-- A transfer goes through the same mappings in both stores, or from an
account to another that is mapped alike in each of them. -/
def BooksAlike (standard : Option String) (own both : Store) (call : Call) :
    Prop :=
  ∀ move ∈ call.moved, TokenHandler.movedPower standard move.2.2 ≠ 0 →
    (own.mappedTo move.1 = both.mappedTo move.1 ∧
      own.mappedTo move.2.1 = both.mappedTo move.2.1) ∨
    (own.mappedTo move.1 = own.mappedTo move.2.1 ∧
      both.mappedTo move.1 = both.mappedTo move.2.1)

instance BooksAlike.decidable (standard : Option String) (own both : Store)
    (call : Call) : Decidable (BooksAlike standard own both call) :=
  inferInstanceAs (Decidable (∀ move ∈ call.moved, _))

theorem BooksAlike.bookedTo_eq {own both : Store} {call : Call}
    (alike : BooksAlike standard own both call) (token : VotesToken)
    (account : Address) :
    bookedTo standard token both call account =
      bookedTo standard token own call account := by
  unfold bookedTo
  cases moved : call.moved with
  | none => rfl
  | some move =>
      obtain ⟨fromAccount, toAccount, value⟩ := move
      dsimp only
      by_cases nothing : TokenHandler.movedPower standard value = 0
      · simp [nothing]
      · rcases alike _ moved nothing with ⟨sameFrom, sameTo⟩ | ⟨own, both⟩
        · dsimp only at sameFrom sameTo
          rw [sameFrom, sameTo]
        · dsimp only at own both
          rw [own, both, sub_self, sub_self]

end TokenSystem

/-- Each token with the store that its own history gives, and the store that
both histories are handled into. -/
structure TwoTokens where
  alone : TokenName → TokenSystem
  store : Store
  hashes : List String

namespace TwoTokens

def initial : TwoTokens := ⟨fun _ => .initial, .empty, []⟩

/-- A token with the store of both. -/
def together (system : TwoTokens) (name : TokenName) : TokenSystem :=
  ⟨(system.alone name).token, system.store, system.hashes⟩

/-- A transaction of one of the tokens, which is handled into the store of both
and into that of the token alone. -/
structure Advances (config : TokenContracts) (system : TwoTokens)
    (happening : TokenName × Transaction) (next : TwoTokens) : Prop where
  alone : (system.alone happening.1).Transacts (config.standard happening.1)
    (fun _ _ _ => True) happening.2 (next.alone happening.1)
  others : ∀ other, other ≠ happening.1 →
    next.alone other = system.alone other
  together : (system.together happening.1).Transacts
    (config.standard happening.1) (fun _ _ _ => True) happening.2
    (next.together happening.1)

/-- The transaction makes one call, under a condition on the store of its token
alone and the store of both. -/
def MakesOne (config : TokenContracts)
    (condition : Option String → Store → Store → Call → Prop)
    (system : TwoTokens) (happening : TokenName × Transaction) : Prop :=
  (system.alone happening.1).MakesOne
    (fun _ own call =>
      condition (config.standard happening.1) own system.store call)
    happening.2

instance MakesOne.decidable (config : TokenContracts)
    (condition : Option String → Store → Store → Call → Prop)
    [∀ standard own both call, Decidable (condition standard own both call)]
    (system : TwoTokens) (happening : TokenName × Transaction) :
    Decidable (MakesOne config condition system happening) :=
  inferInstanceAs (Decidable (TokenSystem.MakesOne _ _ _))

variable {config : TokenContracts} {system next : TwoTokens}

def advance (config : TokenContracts) (system : TwoTokens)
    (happening : TokenName × Transaction) : Option TwoTokens :=
  (TokenSystem.transact (config.standard happening.1) (fun _ _ _ => True)
    (system.alone happening.1) happening.2).bind fun own =>
      (TokenSystem.transact (config.standard happening.1) (fun _ _ _ => True)
        (system.together happening.1) happening.2).map fun both =>
          ⟨fun name => if name = happening.1 then own else system.alone name,
            both.store, both.hashes⟩

theorem advances_of_advance {happening : TokenName × Transaction}
    (advanced : advance config system happening = some next) :
    Advances config system happening next := by
  obtain ⟨own, transacted, rest⟩ := Option.bind_eq_some_iff.mp advanced
  obtain ⟨both, transactedBoth, rfl⟩ := Option.map_eq_some_iff.mp rest
  have alone := TokenSystem.transacts_of_transact transacted
  have together := TokenSystem.transacts_of_transact transactedBoth
  have sameToken : own.token = both.token :=
    TokenSystem.token_of_invocations alone.invoked together.invoked rfl
  constructor
  · dsimp only
    rw [if_pos rfl]
    exact alone
  · intro other different
    exact if_neg different
  · unfold TwoTokens.together at together ⊢
    dsimp only
    rw [if_pos rfl, sameToken]
    exact together

/-- The history of one of the tokens. -/
def historyOf (name : TokenName)
    (happenings : List (TokenName × Transaction)) : List Transaction :=
  happenings.filterMap fun happening =>
    if happening.1 = name then some happening.2 else none

/-- Each token's own store is what handling its history alone gives. -/
theorem alone_of_run {start : TwoTokens}
    {happenings : List (TokenName × Transaction)}
    (run : Runs.Run (Advances config) start happenings system)
    (name : TokenName) :
    Runs.Run
      (TokenSystem.Transacts (config.standard name) fun _ _ _ => True)
      (start.alone name) (historyOf name happenings) (system.alone name) := by
  induction run with
  | start => exact .start
  | @extend earlier state next happening run taken ih =>
      rw [historyOf, List.filterMap_append]
      by_cases same : happening.1 = name
      · subst same
        simp only [List.filterMap_cons, List.filterMap_nil, if_true]
        exact .extend ih taken.alone
      · have other : name ≠ happening.1 := Ne.symm same
        simp only [List.filterMap_cons, List.filterMap_nil, if_neg same,
          List.append_nil]
        rw [taken.others name other]
        exact ih

/-- The power in the store of both is that of the tokens alone. -/
structure Separate (system : TwoTokens) : Prop where
  hashedAlone : ∀ name, (system.alone name).Hashed
  hashed : ∀ name, (system.together name).Hashed
  power : ∀ account,
    system.store.powerOf account =
      (system.alone .governorToken).store.powerOf account +
        (system.alone .igraToken).store.powerOf account

theorem separate_initial : Separate initial where
  hashedAlone _ := TokenSystem.hashed_initial
  hashed _ := TokenSystem.hashed_initial
  power _ := rfl

/-- A transaction that books alike moves the power in the store of both as it
does in that of its token. -/
theorem powerOf_of_advances {happening : TokenName × Transaction}
    (separate : Separate system) (taken : Advances config system happening next)
    (one : MakesOne config TokenSystem.BooksAlike system happening)
    (account : Address) :
    next.store.powerOf account - system.store.powerOf account =
      (next.alone happening.1).store.powerOf account -
        (system.alone happening.1).store.powerOf account := by
  obtain ⟨invocation, single, alike⟩ := one
  have ofBoth := TokenSystem.powerOf_of_booked (taken.together.single single)
    ((separate.hashed _).unannounced taken.together.fresh) account
  have ofAlone := TokenSystem.powerOf_of_booked (taken.alone.single single)
    ((separate.hashedAlone _).unannounced taken.alone.fresh) account
  have same := alike.bookedTo_eq (system.alone happening.1).token account
  dsimp only [together] at ofBoth ofAlone
  omega

theorem Separate.advances {happening : TokenName × Transaction}
    (separate : Separate system) (taken : Advances config system happening next)
    (one : MakesOne config TokenSystem.BooksAlike system happening) :
    Separate next := by
  obtain ⟨invocation, single, alike⟩ := one
  have hashedNext := (separate.hashed happening.1).invokes
    (taken.together.single single)
  constructor
  · intro name
    by_cases same : name = happening.1
    · rw [same]
      exact (separate.hashedAlone _).invokes (taken.alone.single single)
    · rw [taken.others name same]
      exact separate.hashedAlone name
  · intro name
    exact hashedNext
  · intro account
    have moved := powerOf_of_advances separate taken
      ⟨invocation, single, alike⟩ account
    have before := separate.power account
    obtain ⟨name, transaction⟩ := happening
    cases name with
    | governorToken =>
        rw [taken.others .igraToken (by simp)]
        dsimp only at moved
        omega
    | igraToken =>
        rw [taken.others .governorToken (by simp)]
        dsimp only at moved
        omega

/-- The logs of both tokens reach the token handler, and a token alone is what
its own history gives.  Along every interleaving in which each transfer goes
through the mappings that its token alone would have, a contributor has what
both tokens give it. -/
theorem power_is_sum {happenings : List (TokenName × Transaction)}
    (run : Runs.Run
      (Runs.restrict (MakesOne config TokenSystem.BooksAlike)
        (Advances config))
      initial happenings system) :
    (∀ name,
      tokenContract config.contracts (config.contractOf name).address =
          some (config.contractOf name) ∧
        Runs.Run
          (TokenSystem.Transacts (config.standard name) fun _ _ _ => True)
          .initial (historyOf name happenings) (system.alone name)) ∧
      ∀ account,
        system.store.powerOf account =
          (system.alone .governorToken).store.powerOf account +
            (system.alone .igraToken).store.powerOf account := by
  constructor
  · intro name
    exact ⟨config.tokenContract_eq name, alone_of_run run.unrestrict name⟩
  · have separate : Separate system := by
      apply run.preserves separate_initial
      intro before happening after holds taken
      exact holds.advances taken.2 taken.1
    exact separate.power

/-- The governor token is an ERC20 token. -/
def sampleContracts (igraStandard : Option String) : TokenContracts where
  contracts :=
    [⟨.governorToken, TokenHandler.sampleAccount 101, none⟩,
      ⟨.igraToken, TokenHandler.sampleAccount 102, igraStandard⟩]
  apart := by
    change [TokenHandler.sampleAccount 101,
      TokenHandler.sampleAccount 102].Nodup
    decide
  contractOf
    | .governorToken =>
        ⟨.governorToken, TokenHandler.sampleAccount 101, none⟩
    | .igraToken => ⟨.igraToken, TokenHandler.sampleAccount 102, igraStandard⟩
  configured name := by
    cases name with
    | governorToken => simp
    | igraToken => simp
  named name := by
    cases name with
    | governorToken => rfl
    | igraToken => rfl

/-- An account delegates the tokens that it has of one kind, and gets a token
of the other kind that it has delegated to the same account. -/
def sampleInterleaving : List (TokenName × Transaction) :=
  TokenSystem.sampleDelegated.map (fun transaction =>
      (.governorToken, transaction)) ++
    [(.igraToken, TokenSystem.singleCall "c"
        (.delegate TokenSystem.firstHolder (TokenSystem.sampleHolder 2))
        [("4", .delegateChanged (TokenSystem.sampleHolder 1) zeroAddress
          (TokenSystem.sampleHolder 2))]),
      (.igraToken, TokenSystem.singleCall "d"
        (.mint TokenSystem.firstHolder 3)
        [("5", .transfer zeroAddress (TokenSystem.sampleHolder 1) 3),
          ("6", .delegateVotesChanged (TokenSystem.sampleHolder 2) 0 1)])]

/-- The igra token is an ERC721 token, of which the account gets one id. -/
theorem power_is_sum_sampleInterleaving :
    ∃ system,
      Runs.Run
        (Runs.restrict
          (MakesOne (sampleContracts (some "ERC721")) TokenSystem.BooksAlike)
          (Advances (sampleContracts (some "ERC721"))))
        initial sampleInterleaving system ∧
      system.store.powerOf (TokenSystem.sampleHolder 2) = 6 ∧
      system.store.powerOf (TokenSystem.sampleHolder 2) =
        (system.alone .governorToken).store.powerOf
            (TokenSystem.sampleHolder 2) +
          (system.alone .igraToken).store.powerOf
            (TokenSystem.sampleHolder 2) := by
  have followed : (Runs.follow
      (MakesOne (sampleContracts (some "ERC721")) TokenSystem.BooksAlike)
      (advance (sampleContracts (some "ERC721"))) initial
      sampleInterleaving).any fun system =>
        system.store.powerOf (TokenSystem.sampleHolder 2) = 6 := by
    decide +kernel
  obtain ⟨system, reached, six⟩ := (Option.any_eq_true _ _).mp followed
  have run := Runs.Run.of_follow (fun _ _ _ => advances_of_advance) reached
  exact ⟨system, run, of_decide_eq_true six,
    (power_is_sum run).2 (TokenSystem.sampleHolder 2)⟩

/-- The delegation of one token sends on what is minted of the other. -/
theorem power_of_other_token :
    ∃ happenings system,
      Runs.Run
        (Runs.restrict (MakesOne (sampleContracts none) fun _ _ _ _ => True)
          (Advances (sampleContracts none)))
        initial happenings system ∧
      system.store.powerOf (TokenSystem.sampleHolder 2) = 5 ∧
      (system.alone .governorToken).store.powerOf
        (TokenSystem.sampleHolder 2) = 0 ∧
      (system.alone .igraToken).store.powerOf
        (TokenSystem.sampleHolder 2) = 0 := by
  let happenings : List (TokenName × Transaction) :=
    [(.governorToken, TokenSystem.singleCall "a"
        (.delegate TokenSystem.firstHolder (TokenSystem.sampleHolder 2))
        [("1", .delegateChanged (TokenSystem.sampleHolder 1) zeroAddress
          (TokenSystem.sampleHolder 2))]),
      (.igraToken, TokenSystem.singleCall "b"
        (.mint TokenSystem.firstHolder 5)
        [("2", .transfer zeroAddress (TokenSystem.sampleHolder 1) 5)])]
  have followed : (Runs.follow
      (MakesOne (sampleContracts none) fun _ _ _ _ => True)
      (advance (sampleContracts none)) initial happenings).any fun system =>
        system.store.powerOf (TokenSystem.sampleHolder 2) = 5 ∧
          (system.alone .governorToken).store.powerOf
            (TokenSystem.sampleHolder 2) = 0 ∧
          (system.alone .igraToken).store.powerOf
            (TokenSystem.sampleHolder 2) = 0 := by
    decide +kernel
  obtain ⟨system, reached, all⟩ := (Option.any_eq_true _ _).mp followed
  have run := Runs.Run.of_follow (fun _ _ _ => advances_of_advance) reached
  exact ⟨happenings, system, run, of_decide_eq_true all⟩

end TwoTokens

end Degov

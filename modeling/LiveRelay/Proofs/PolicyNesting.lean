import LiveRelay.Policy

/-!
# Policies in any nesting

A chain of policies is a tree, and the way it is nested makes no difference.
Its policies are asked from left to right until one of them rejects.  A part of
the chain that has not rejected counts as a single acceptance, under the last
other path that was given in it, so what is asked behind it does not see how it
was put together.
-/

namespace LiveRelay

namespace Decision

theorem isReject_followedBy {first : Decision} (hfirst : first.isReject = false)
    (second : Decision) : (first.followedBy second).isReject = second.isReject := by
  cases first with
  | accept => rfl
  | acceptAs path => cases second <;> rfl
  | reject reason => cases hfirst

/-- What comes after two acceptances comes after their joint decision.  After a
rejection that an acceptance precedes it would not. -/
theorem followedBy_assoc (first : Decision) {second : Decision}
    (hsecond : second.isReject = false) (third : Decision) :
    (first.followedBy second).followedBy third =
      first.followedBy (second.followedBy third) := by
  cases second with
  | accept => cases first <;> cases third <;> rfl
  | acceptAs path => cases first <;> cases third <;> rfl
  | reject reason => cases hsecond

end Decision

namespace PolicyChain

/-- The policies of a chain with their names, from left to right. -/
def singles : PolicyChain → List (String × Policy)
  | .single name policy => [(name, policy)]
  | .chained first second => first.singles ++ second.singles

/-- Policies in a row are asked until one of them rejects; none at all accept. -/
def decideInTurn (context : SessionContext) (request : Request) :
    List (String × Policy) → Decision × List String
  | [] => (.accept, [])
  | (name, policy) :: behind =>
      let decision := policy.decide context request
      if decision.isReject then (decision, [name])
      else
        let (next, others) := decideInTurn context request behind
        (decision.followedBy next, name :: others)

section Decide

variable (context : SessionContext) (request : Request)

/-! ## In turn -/

section InTurn

variable {context request} {name : String} {policy : Policy}
  {before behind : List (String × Policy)}

theorem decideInTurn_of_reject {reason : String}
    (hreject : policy.decide context request = .reject reason) :
    decideInTurn context request ((name, policy) :: behind) = (.reject reason, [name]) := by
  rw [decideInTurn, hreject]
  rfl

theorem decideInTurn_of_accept
    (haccept : (policy.decide context request).isReject = false) :
    decideInTurn context request ((name, policy) :: behind) =
      ((policy.decide context request).followedBy (decideInTurn context request behind).1,
        name :: (decideInTurn context request behind).2) := by
  rw [decideInTurn, haccept]
  rfl

/-- What stands behind a rejection is not asked. -/
theorem decideInTurn_append_of_reject
    (hreject : (decideInTurn context request before).1.isReject = true) :
    decideInTurn context request (before ++ behind) = decideInTurn context request before := by
  induction before with
  | nil => cases hreject
  | cons head before ih =>
      obtain ⟨name, policy⟩ := head
      rw [List.cons_append]
      cases hhead : (policy.decide context request).isReject with
      | true => rw [decideInTurn, hhead, decideInTurn, hhead]; rfl
      | false =>
          rw [decideInTurn_of_accept hhead, Decision.isReject_followedBy hhead] at hreject
          rw [decideInTurn_of_accept hhead, decideInTurn_of_accept hhead, ih hreject]

theorem decideInTurn_append_of_accept
    (haccept : (decideInTurn context request before).1.isReject = false) :
    decideInTurn context request (before ++ behind) =
      ((decideInTurn context request before).1.followedBy
          (decideInTurn context request behind).1,
        (decideInTurn context request before).2 ++
          (decideInTurn context request behind).2) := by
  induction before with
  | nil => rfl
  | cons head before ih =>
      obtain ⟨name, policy⟩ := head
      rw [List.cons_append]
      cases hhead : (policy.decide context request).isReject with
      | true =>
          rw [decideInTurn, hhead] at haccept
          exact absurd (hhead.symm.trans haccept) (by decide)
      | false =>
          rw [decideInTurn_of_accept hhead, Decision.isReject_followedBy hhead] at haccept
          rw [decideInTurn_of_accept hhead, decideInTurn_of_accept hhead, ih haccept,
            Decision.followedBy_assoc _ haccept, List.cons_append]

/-- Policies none of which rejects are all asked. -/
theorem names_decideInTurn
    (haccept : ∀ single ∈ before, (single.2.decide context request).isReject = false) :
    (decideInTurn context request before).1.isReject = false ∧
      (decideInTurn context request before).2 = before.map Prod.fst := by
  induction before with
  | nil => exact ⟨rfl, rfl⟩
  | cons head before ih =>
      obtain ⟨hhead, hbefore⟩ := List.forall_mem_cons.mp haccept
      obtain ⟨hdecision, hnames⟩ := ih hbefore
      rw [decideInTurn_of_accept hhead, Decision.isReject_followedBy hhead, hnames]
      exact ⟨hdecision, rfl⟩

/-- Policies that accept as asked say nothing about the path. -/
theorem decideInTurn_of_accepts
    (haccept : ∀ single ∈ before, single.2.decide context request = .accept) :
    decideInTurn context request before = (.accept, before.map Prod.fst) := by
  induction before with
  | nil => rfl
  | cons head before ih =>
      obtain ⟨hhead, hbefore⟩ := List.forall_mem_cons.mp haccept
      rw [decideInTurn_of_accept (by rw [hhead]; rfl), ih hbefore, hhead]
      rfl

end InTurn

/-! ## In a tree -/

/-- A chain asks its policies in turn. -/
theorem decide_eq_decideInTurn (chain : PolicyChain) :
    chain.decide context request = decideInTurn context request chain.singles := by
  induction chain with
  | single name policy =>
      cases hdecision : policy.decide context request <;>
        simp [decide, singles, decideInTurn, hdecision, Decision.isReject, Decision.followedBy]
  | chained first second ihfirst ihsecond =>
      rw [decide, singles, ihfirst, ihsecond]
      cases hfirst : (decideInTurn context request first.singles).1.isReject with
      | true => rw [decideInTurn_append_of_reject hfirst]; simp [hfirst]
      | false => rw [decideInTurn_append_of_accept hfirst]; simp [hfirst]

/-- If a policy rejects, the first one that does gives the reason, and none behind
it is asked.  Otherwise all are asked, each once and in order, and the last one
that gives another path gives that of the chain.  So a chain that is nested in
another way asks the same policies and decides the same. -/
theorem decide_of_singles (chain : PolicyChain) :
    (∀ before name policy behind reason, chain.singles = before ++ (name, policy) :: behind →
      (∀ earlier ∈ before, (earlier.2.decide context request).isReject = false) →
      policy.decide context request = .reject reason →
      chain.decide context request = (.reject reason, before.map Prod.fst ++ [name])) ∧
    (∀ before name policy behind path, chain.singles = before ++ (name, policy) :: behind →
      (∀ earlier ∈ before, (earlier.2.decide context request).isReject = false) →
      policy.decide context request = .acceptAs path →
      (∀ later ∈ behind, later.2.decide context request = .accept) →
      chain.decide context request = (.acceptAs path, chain.singles.map Prod.fst)) ∧
    ((∀ single ∈ chain.singles, single.2.decide context request = .accept) →
      chain.decide context request = (.accept, chain.singles.map Prod.fst)) ∧
    ∀ other : PolicyChain, other.singles = chain.singles →
      other.decide context request = chain.decide context request := by
  simp only [decide_eq_decideInTurn]
  refine ⟨?_, ?_, decideInTurn_of_accepts, fun other hsame => by rw [hsame]⟩
  · intro before name policy behind reason hsingles hearlier hreject
    obtain ⟨hbefore, hnames⟩ := names_decideInTurn hearlier
    rw [hsingles, decideInTurn_append_of_accept hbefore, decideInTurn_of_reject hreject, hnames]
    cases (decideInTurn context request before).1 <;> rfl
  · intro before name policy behind path hsingles hearlier hpath hlater
    obtain ⟨hbefore, hnames⟩ := names_decideInTurn hearlier
    rw [hsingles, decideInTurn_append_of_accept hbefore,
      decideInTurn_of_accept (by rw [hpath]; rfl), decideInTurn_of_accepts hlater, hnames, hpath,
      List.map_append, List.map_cons]
    cases (decideInTurn context request before).1 <;> rfl

end Decide

/-- The second of three policies rejects who plays and sends who publishes to
another path, and all are content with who connects. -/
theorem decide_of_singles_of_three :
    let guarding : Policy :=
      { decide := fun _ request =>
          match request with
          | .connect _ => .accept
          | .publish _ _ _ => .acceptAs ⟨"/live/renamed"⟩
          | .play _ _ => .reject "no viewers" }
    let chain : PolicyChain :=
      .chained (.single "first" {}) (.chained (.single "second" guarding) (.single "third" {}))
    let other : PolicyChain :=
      .chained (.chained (.single "first" {}) (.single "second" guarding)) (.single "third" {})
    let context : SessionContext := { sessionId := 1 }
    let path : StreamPath := ⟨"/live/demo"⟩
    chain.singles = [("first", {}), ("second", guarding), ("third", {})] ∧
      other.singles = chain.singles ∧
      chain.decide context (.play path []) = (.reject "no viewers", ["first", "second"]) ∧
      chain.decide context (.publish path [] "live") =
        (.acceptAs ⟨"/live/renamed"⟩, ["first", "second", "third"]) ∧
      chain.decide context (.connect {}) = (.accept, ["first", "second", "third"]) ∧
      ∀ request, other.decide context request = chain.decide context request := by
  intro guarding chain other context path
  have hfirst : ∀ request, ∀ earlier ∈ [("first", ({} : Policy))],
      (earlier.2.decide context request).isReject = false := by
    intro request earlier hearlier
    rw [List.mem_singleton.mp hearlier]
    rfl
  have hthird : ∀ request, ∀ later ∈ [("third", ({} : Policy))],
      later.2.decide context request = .accept := by
    intro request later hlater
    rw [List.mem_singleton.mp hlater]
  have hall : ∀ single ∈ chain.singles, single.2.decide context (.connect {}) = .accept := by
    intro single hsingle
    simp only [chain, singles, List.mem_append, List.mem_singleton] at hsingle
    rcases hsingle with rfl | rfl | rfl <;> rfl
  exact ⟨rfl, rfl,
    (decide_of_singles context (.play path []) chain).1
      [("first", {})] "second" guarding [("third", {})] _ rfl (hfirst _) rfl,
    (decide_of_singles context (.publish path [] "live") chain).2.1
      [("first", {})] "second" guarding [("third", {})] _ rfl (hfirst _) rfl (hthird _),
    (decide_of_singles context (.connect {}) chain).2.2.1 hall,
    fun request => (decide_of_singles context request chain).2.2.2 other rfl⟩

end PolicyChain

end LiveRelay

import Mathlib.Data.List.Infix
import Mathlib.Logic.Function.Basic
import Mathlib.Logic.Relation

/-!
# Coalescing caches

A coalescing cache lets one stream fetch the response of a key, shares what
this leader publishes with the streams that ask for the key meanwhile, and may
keep the complete response for streams that ask later.  It may forget what it
keeps at any time.  Nothing is said about bytes, room or threads: a state names
the leader whose response a key, a hit or a follower refers to, and how many of
the published pieces a follower has seen.
-/

namespace Coalescing

universe u v w

/-- What a stream is for the cache. -/
inductive Role (κ : Type u) (ι : Type v) where
  | idle
  | hit (key : κ) (source : ι)
  | leader (key : κ)
  | follower (key : κ) (source : ι)

/-- The leaders whose responses are being fetched and kept, what leaders have
published, and what every stream is and has seen. -/
structure State (κ : Type u) (ι : Type v) (π : Type w) where
  fetching : κ → Option ι
  kept : κ → Option ι
  published : ι → List π
  role : ι → Role κ ι
  seen : ι → Nat

variable {κ : Type u} {ι : Type v} {π : Type w}

/-- Nobody has asked for anything. -/
def State.initial : State κ ι π where
  fetching := fun _ => none
  kept := fun _ => none
  published := fun _ => []
  role := fun _ => .idle
  seen := fun _ => 0

section Names

/-- Names refer to leaders of the right key, and what is kept or served from
what is kept is complete. -/
structure WellFormed (ended : List π → Bool) (state : State κ ι π) :
    Prop where
  fetching :
    ∀ {key stream},
      state.fetching key = some stream →
        state.role stream = .leader key
  kept :
    ∀ {key stream},
      state.kept key = some stream →
        state.role stream = .leader key ∧
          ended (state.published stream) = true
  hits :
    ∀ {stream key source},
      state.role stream = .hit key source →
        state.role source = .leader key ∧
          ended (state.published source) = true
  followers :
    ∀ {stream key source},
      state.role stream = .follower key source →
        state.role source = .leader key ∧
          state.seen stream ≤ (state.published source).length

variable {ended : List π → Bool} {state next : State κ ι π}

theorem initial_wellFormed :
    WellFormed ended (State.initial : State κ ι π) where
  fetching := by
    intro key stream fetched
    simp [State.initial] at fetched
  kept := by
    intro key stream keeps
    simp [State.initial] at keeps
  hits := by
    intro stream key source hit
    simp [State.initial] at hit
  followers := by
    intro stream key source follows
    simp [State.initial] at follows

/-- Leaders stay leaders, publish more, and do not go back from the end of
their responses. -/
structure Extends (ended : List π → Bool) (state next : State κ ι π) :
    Prop where
  leaders :
    ∀ {stream key},
      state.role stream = .leader key → next.role stream = .leader key
  published :
    ∀ {stream key},
      state.role stream = .leader key →
        state.published stream <+: next.published stream
  complete :
    ∀ {stream key},
      state.role stream = .leader key →
      ended (state.published stream) = true →
        next.published stream = state.published stream

theorem Extends.refl_of_same
    (sameRole : next.role = state.role)
    (samePublished : next.published = state.published) :
    Extends ended state next where
  leaders := by
    intro stream key leads
    rw [sameRole]
    exact leads
  published := by
    intro stream key _
    rw [samePublished]
  complete := by
    intro stream key _ _
    rw [samePublished]

theorem Extends.trans
    {middle : State κ ι π}
    (first : Extends ended state middle)
    (second : Extends ended middle next) :
    Extends ended state next where
  leaders := by
    intro stream key leads
    exact second.leaders (first.leaders leads)
  published := by
    intro stream key leads
    exact
      (first.published leads).trans
        (second.published (first.leaders leads))
  complete := by
    intro stream key leads complete
    have same := first.complete leads complete
    rw [← same] at complete
    exact (second.complete (first.leaders leads) complete).trans same

/-- A stream that was idle takes a role. -/
theorem Extends.of_role
    [DecidableEq ι] {stream : ι} {role : Role κ ι}
    (idle : state.role stream = .idle)
    (roleEq : next.role = Function.update state.role stream role)
    (publishedEq :
      ∀ other, other ≠ stream →
        next.published other = state.published other) :
    Extends ended state next := by
  have elsewhere :
      ∀ {other key},
        state.role other = .leader key → other ≠ stream := by
    intro other key leads same
    rw [same, idle] at leads
    simp at leads
  refine { leaders := ?_, published := ?_, complete := ?_ }
  · intro other key leads
    rw [roleEq, Function.update_of_ne (elsewhere leads)]
    exact leads
  · intro other key leads
    rw [publishedEq other (elsewhere leads)]
  · intro other key leads _
    exact publishedEq other (elsewhere leads)

/-- Names that are inherited stay well formed. -/
theorem WellFormed.of_extends
    (wellFormed : WellFormed ended state)
    (extension : Extends ended state next)
    (fetching :
      ∀ {key stream},
        next.fetching key = some stream →
          state.fetching key = some stream ∨
            next.role stream = .leader key)
    (kept :
      ∀ {key stream},
        next.kept key = some stream →
          state.kept key = some stream ∨
            state.role stream = .leader key ∧
              ended (state.published stream) = true)
    (hits :
      ∀ {stream key source},
        next.role stream = .hit key source →
          state.role stream = .hit key source ∨
            state.kept key = some source)
    (followers :
      ∀ {stream key source},
        next.role stream = .follower key source →
          state.role source = .leader key ∧
            next.seen stream ≤ (state.published source).length) :
    WellFormed ended next := by
  have completed :
      ∀ {stream key},
        state.role stream = .leader key →
        ended (state.published stream) = true →
          next.role stream = .leader key ∧
            ended (next.published stream) = true := by
    intro stream key leads complete
    refine ⟨extension.leaders leads, ?_⟩
    rw [extension.complete leads complete]
    exact complete
  refine
    { fetching := ?_
      kept := ?_
      hits := ?_
      followers := ?_ }
  · intro key stream fetched
    rcases fetching fetched with earlier | leads
    · exact extension.leaders (wellFormed.fetching earlier)
    · exact leads
  · intro key stream keeps
    rcases kept keeps with earlier | ⟨leads, complete⟩
    · obtain ⟨leads, complete⟩ := wellFormed.kept earlier
      exact completed leads complete
    · exact completed leads complete
  · intro stream key source hit
    rcases hits hit with earlier | keeps
    · obtain ⟨leads, complete⟩ := wellFormed.hits earlier
      exact completed leads complete
    · obtain ⟨leads, complete⟩ := wellFormed.kept keeps
      exact completed leads complete
  · intro stream key source follows
    obtain ⟨leads, bound⟩ := followers follows
    refine ⟨extension.leaders leads, Nat.le_trans bound ?_⟩
    exact (extension.published leads).length_le

end Names

section Sources

/-- The key a stream has asked for and the leader whose response it gets. -/
def Role.source (stream : ι) : Role κ ι → Option (κ × ι)
  | .idle => none
  | .hit key source => some (key, source)
  | .leader key => some (key, stream)
  | .follower key source => some (key, source)

/-- The response of `source` is being fetched or kept for the key, or `source`
has yet to ask for anything. -/
def State.Fresh (state : State κ ι π) (key : κ) (source : ι) : Prop :=
  state.fetching key = some source ∨
    state.kept key = some source ∨ state.role source = .idle

/-- Everything that is fetched or kept later, or served to a stream that is
idle in `state`, is fresh in `state`. -/
structure Since (state later : State κ ι π) : Prop where
  idle :
    ∀ {stream}, later.role stream = .idle → state.role stream = .idle
  fetching :
    ∀ {key source},
      later.fetching key = some source → state.Fresh key source
  kept :
    ∀ {key source},
      later.kept key = some source → state.Fresh key source
  served :
    ∀ {stream key source},
      state.role stream = .idle →
      (later.role stream).source stream = some (key, source) →
        state.Fresh key source

variable {state later next : State κ ι π}

/-- The response that a stream gets is one of a leader of its key. -/
theorem WellFormed.source_leads
    {ended : List π → Bool} (wellFormed : WellFormed ended state)
    {stream source : ι} {key : κ}
    (served :
      (state.role stream).source stream = some (key, source)) :
    state.role source = .leader key := by
  cases role : state.role stream with
  | idle =>
      simp [role, Role.source] at served
  | hit other named =>
      simp only [role, Role.source, Option.some.injEq, Prod.mk.injEq]
        at served
      obtain ⟨rfl, rfl⟩ := served
      exact (wellFormed.hits role).1
  | leader other =>
      simp only [role, Role.source, Option.some.injEq, Prod.mk.injEq]
        at served
      obtain ⟨rfl, rfl⟩ := served
      exact role
  | follower other named =>
      simp only [role, Role.source, Option.some.injEq, Prod.mk.injEq]
        at served
      obtain ⟨rfl, rfl⟩ := served
      exact (wellFormed.followers role).1

theorem Since.refl (state : State κ ι π) : Since state state where
  idle := fun idle => idle
  fetching := fun fetched => Or.inl fetched
  kept := fun keeps => Or.inr (Or.inl keeps)
  served := by
    intro stream key source idle served
    rw [idle] at served
    simp [Role.source] at served

/-- A stream that was idle takes a role with a fresh source. -/
theorem Since.of_role
    [DecidableEq ι] (since : Since state later)
    {stream : ι} {role : Role κ ι}
    (roleEq : next.role = Function.update later.role stream role)
    (takes : role ≠ .idle)
    (fetching :
      ∀ {key source},
        next.fetching key = some source → state.Fresh key source)
    (keptEq : next.kept = later.kept)
    (fresh :
      ∀ {key source},
        role.source stream = some (key, source) →
          state.Fresh key source) :
    Since state next := by
  refine
    { idle := ?_
      fetching := fetching
      kept := ?_
      served := ?_ }
  · intro other idle
    rw [roleEq] at idle
    by_cases same : other = stream
    · subst same
      rw [Function.update_self] at idle
      exact absurd idle takes
    · rw [Function.update_of_ne same] at idle
      exact since.idle idle
  · intro key source keeps
    rw [keptEq] at keeps
    exact since.kept keeps
  · intro other key source idle served
    rw [roleEq] at served
    by_cases same : other = stream
    · subst same
      rw [Function.update_self] at served
      exact fresh served
    · rw [Function.update_of_ne same] at served
      exact since.served idle served

/-- No stream takes a role. -/
theorem Since.of_same_role
    (since : Since state later) (roleEq : next.role = later.role)
    (fetching :
      ∀ {key source},
        next.fetching key = some source →
          later.fetching key = some source)
    (kept :
      ∀ {key source},
        next.kept key = some source →
          later.kept key = some source ∨
            later.fetching key = some source) :
    Since state next := by
  refine
    { idle := ?_
      fetching := fun fetched => since.fetching (fetching fetched)
      kept := ?_
      served := ?_ }
  · intro stream idle
    rw [roleEq] at idle
    exact since.idle idle
  · intro key source keeps
    rcases kept keeps with earlier | fetched
    · exact since.kept earlier
    · exact since.fetching fetched
  · intro stream key source idle served
    rw [roleEq] at served
    exact since.served idle served

end Sources

section Steps

variable [DecidableEq κ] [DecidableEq ι]

/-- The steps of a coalescing cache. -/
inductive Step (ended : List π → Bool) (state : State κ ι π) :
    State κ ι π → Prop
  | hit
      {stream source : ι} {key : κ}
      (idle : state.role stream = .idle)
      (keeps : state.kept key = some source) :
      Step ended state
        { state with
          role := Function.update state.role stream (.hit key source) }
  | lead
      {stream : ι} {key : κ}
      (idle : state.role stream = .idle)
      (keepsNot : state.kept key = none)
      (free : state.fetching key = none) :
      Step ended state
        { state with
          fetching := Function.update state.fetching key (some stream)
          published := Function.update state.published stream []
          role := Function.update state.role stream (.leader key) }
  | follow
      {stream source : ι} {key : κ}
      (idle : state.role stream = .idle)
      (keepsNot : state.kept key = none)
      (fetched : state.fetching key = some source) :
      Step ended state
        { state with
          role :=
            Function.update state.role stream (.follower key source)
          seen := Function.update state.seen stream 0 }
  | publish
      {stream : ι} {key : κ} (piece : π)
      (fetched : state.fetching key = some stream)
      (unfinished : ended (state.published stream) = false) :
      Step ended state
        { state with
          published :=
            Function.update state.published stream
              (state.published stream ++ [piece]) }
  | keep
      {stream : ι} {key : κ}
      (fetched : state.fetching key = some stream)
      (complete : ended (state.published stream) = true) :
      Step ended state
        { state with
          fetching := Function.update state.fetching key none
          kept := Function.update state.kept key (some stream) }
  | drop
      {stream : ι} {key : κ}
      (fetched : state.fetching key = some stream)
      (complete : ended (state.published stream) = true) :
      Step ended state
        { state with
          fetching := Function.update state.fetching key none }
  | evict (key : κ) :
      Step ended state
        { state with kept := Function.update state.kept key none }
  | receive
      {stream source : ι} {key : κ} (count : Nat)
      (follows : state.role stream = .follower key source)
      (forward : state.seen stream ≤ count)
      (available : count ≤ (state.published source).length) :
      Step ended state
        { state with seen := Function.update state.seen stream count }

/-- The states of a coalescing cache. -/
def Reached (ended : List π → Bool) (state : State κ ι π) : Prop :=
  Relation.ReflTransGen (Step ended) State.initial state

variable {ended : List π → Bool} {state next : State κ ι π}

theorem Step.extends (stepped : Step ended state next) :
    Extends ended state next := by
  cases stepped with
  | hit idle =>
      exact Extends.of_role idle rfl (fun _ _ => rfl)
  | lead idle =>
      refine Extends.of_role idle rfl ?_
      intro other different
      exact Function.update_of_ne different _ _
  | follow idle =>
      exact Extends.of_role idle rfl (fun _ _ => rfl)
  | @publish stream key piece fetched unfinished =>
      refine
        { leaders := fun leads => leads
          published := ?_
          complete := ?_ }
      · intro other _ _
        by_cases same : other = stream
        · subst same
          simp only [Function.update_self]
          exact List.prefix_append _ _
        · simp only [Function.update_of_ne same]
          exact List.prefix_refl _
      · intro other _ _ complete
        refine Function.update_of_ne ?_ _ _
        intro same
        rw [same, unfinished] at complete
        simp at complete
  | keep =>
      exact Extends.refl_of_same rfl rfl
  | drop =>
      exact Extends.refl_of_same rfl rfl
  | evict =>
      exact Extends.refl_of_same rfl rfl
  | receive =>
      exact Extends.refl_of_same rfl rfl

theorem extends_of_steps
    (steps : Relation.ReflTransGen (Step ended) state next) :
    Extends ended state next := by
  induction steps with
  | refl =>
      exact Extends.refl_of_same rfl rfl
  | tail _ stepped inductionHypothesis =>
      exact inductionHypothesis.trans stepped.extends

theorem WellFormed.step
    (wellFormed : WellFormed ended state)
    (stepped : Step ended state next) :
    WellFormed ended next := by
  have extension := stepped.extends
  cases stepped with
  | @hit stream source key idle keeps =>
      refine
        wellFormed.of_extends extension (fun fetched => Or.inl fetched)
          (fun keeps => Or.inl keeps) ?_ ?_
      · intro other otherKey otherSource hit
        by_cases same : other = stream
        · subst same
          simp only [Function.update_self, Role.hit.injEq] at hit
          obtain ⟨rfl, rfl⟩ := hit
          exact Or.inr keeps
        · simp only [Function.update_of_ne same] at hit
          exact Or.inl hit
      · intro other otherKey otherSource follows
        have different : other ≠ stream := by
          intro same
          subst same
          simp at follows
        simp only [Function.update_of_ne different] at follows
        exact wellFormed.followers follows
  | @lead stream key idle keepsNot free =>
      refine
        wellFormed.of_extends extension ?_ (fun keeps => Or.inl keeps)
          ?_ ?_
      · intro other leader fetched
        by_cases same : other = key
        · subst same
          simp only [Function.update_self, Option.some.injEq]
            at fetched
          subst fetched
          exact Or.inr (Function.update_self _ _ _)
        · simp only [Function.update_of_ne same] at fetched
          exact Or.inl fetched
      · intro other otherKey otherSource hit
        have different : other ≠ stream := by
          intro same
          subst same
          simp at hit
        simp only [Function.update_of_ne different] at hit
        exact Or.inl hit
      · intro other otherKey otherSource follows
        have different : other ≠ stream := by
          intro same
          subst same
          simp at follows
        simp only [Function.update_of_ne different] at follows
        exact wellFormed.followers follows
  | @follow stream source key idle keepsNot fetched =>
      refine
        wellFormed.of_extends extension (fun fetched => Or.inl fetched)
          (fun keeps => Or.inl keeps) ?_ ?_
      · intro other otherKey otherSource hit
        have different : other ≠ stream := by
          intro same
          subst same
          simp at hit
        simp only [Function.update_of_ne different] at hit
        exact Or.inl hit
      · intro other otherKey otherSource follows
        by_cases same : other = stream
        · subst same
          simp only [Function.update_self, Role.follower.injEq]
            at follows ⊢
          obtain ⟨rfl, rfl⟩ := follows
          exact ⟨wellFormed.fetching fetched, Nat.zero_le _⟩
        · simp only [Function.update_of_ne same] at follows ⊢
          exact wellFormed.followers follows
  | publish =>
      exact
        wellFormed.of_extends extension (fun fetched => Or.inl fetched)
          (fun keeps => Or.inl keeps) (fun hit => Or.inl hit)
          (fun follows => wellFormed.followers follows)
  | @keep stream key fetched complete =>
      refine
        wellFormed.of_extends extension ?_ ?_ (fun hit => Or.inl hit)
          (fun follows => wellFormed.followers follows)
      · intro other leader otherFetched
        have different : other ≠ key := by
          intro same
          subst same
          simp at otherFetched
        simp only [Function.update_of_ne different] at otherFetched
        exact Or.inl otherFetched
      · intro other leader keeps
        by_cases same : other = key
        · subst same
          simp only [Function.update_self, Option.some.injEq] at keeps
          subst keeps
          exact Or.inr ⟨wellFormed.fetching fetched, complete⟩
        · simp only [Function.update_of_ne same] at keeps
          exact Or.inl keeps
  | @drop stream key fetched complete =>
      refine
        wellFormed.of_extends extension ?_ (fun keeps => Or.inl keeps)
          (fun hit => Or.inl hit)
          (fun follows => wellFormed.followers follows)
      intro other leader otherFetched
      have different : other ≠ key := by
        intro same
        subst same
        simp at otherFetched
      simp only [Function.update_of_ne different] at otherFetched
      exact Or.inl otherFetched
  | evict key =>
      refine
        wellFormed.of_extends extension (fun fetched => Or.inl fetched)
          ?_ (fun hit => Or.inl hit)
          (fun follows => wellFormed.followers follows)
      intro other leader keeps
      have different : other ≠ key := by
        intro same
        subst same
        simp at keeps
      simp only [Function.update_of_ne different] at keeps
      exact Or.inl keeps
  | @receive stream source key count follows forward available =>
      refine
        wellFormed.of_extends extension (fun fetched => Or.inl fetched)
          (fun keeps => Or.inl keeps) (fun hit => Or.inl hit) ?_
      intro other otherKey otherSource otherFollows
      by_cases same : other = stream
      · subst same
        have sameNames := follows.symm.trans otherFollows
        simp only [Role.follower.injEq] at sameNames
        obtain ⟨rfl, rfl⟩ := sameNames
        simp only [Function.update_self]
        exact ⟨(wellFormed.followers follows).1, available⟩
      · simp only [Function.update_of_ne same]
        exact wellFormed.followers otherFollows

theorem Reached.wellFormed (reached : Reached ended state) :
    WellFormed ended state := by
  induction reached with
  | refl =>
      exact initial_wellFormed
  | tail _ stepped inductionHypothesis =>
      exact inductionHypothesis.step stepped

/-- Nothing is published after the end of a response. -/
theorem Reached.closed (reached : Reached ended state) :
    ∀ {stream : ι} {count : Nat},
      ended ((state.published stream).take count) = true →
        (state.published stream).length ≤ count := by
  induction reached with
  | refl =>
      intro stream count _
      exact Nat.zero_le _
  | @tail middle last _ stepped inductionHypothesis =>
      intro stream count complete
      cases stepped with
      | @lead leader key idle keepsNot free =>
          by_cases same : stream = leader
          · subst same
            simp
          · simp only [Function.update_of_ne same] at complete ⊢
            exact inductionHypothesis complete
      | @publish leader key piece fetched unfinished =>
          by_cases same : stream = leader
          · subst same
            simp only [Function.update_self] at complete ⊢
            by_contra short
            rw [List.length_append, List.length_singleton] at short
            have within :
                count ≤ (middle.published stream).length := by
              omega
            rw [List.take_append_of_le_length within] at complete
            have whole := inductionHypothesis complete
            rw [List.take_of_length_le whole, unfinished] at complete
            simp at complete
          · simp only [Function.update_of_ne same] at complete ⊢
            exact inductionHypothesis complete
      | hit =>
          exact inductionHypothesis complete
      | follow =>
          exact inductionHypothesis complete
      | keep =>
          exact inductionHypothesis complete
      | drop =>
          exact inductionHypothesis complete
      | evict =>
          exact inductionHypothesis complete
      | receive =>
          exact inductionHypothesis complete

theorem Since.step
    {later : State κ ι π} (since : Since state later)
    (stepped : Step ended later next) :
    Since state next := by
  cases stepped with
  | @hit stream source key idle keeps =>
      refine
        since.of_role rfl (by simp)
          (fun fetched => since.fetching fetched) rfl ?_
      intro otherKey other served
      simp only [Role.source, Option.some.injEq, Prod.mk.injEq]
        at served
      obtain ⟨rfl, rfl⟩ := served
      exact since.kept keeps
  | @lead stream key idle keepsNot free =>
      have fresh : ∀ {other}, state.Fresh other stream :=
        Or.inr (Or.inr (since.idle idle))
      refine since.of_role rfl (by simp) ?_ rfl ?_
      · intro other source fetched
        by_cases same : other = key
        · subst same
          simp only [Function.update_self, Option.some.injEq]
            at fetched
          subst fetched
          exact fresh
        · simp only [Function.update_of_ne same] at fetched
          exact since.fetching fetched
      · intro other source served
        simp only [Role.source, Option.some.injEq, Prod.mk.injEq]
          at served
        obtain ⟨rfl, rfl⟩ := served
        exact fresh
  | @follow stream source key idle keepsNot fetched =>
      refine
        since.of_role rfl (by simp)
          (fun fetched => since.fetching fetched) rfl ?_
      intro otherKey other served
      simp only [Role.source, Option.some.injEq, Prod.mk.injEq]
        at served
      obtain ⟨rfl, rfl⟩ := served
      exact since.fetching fetched
  | publish =>
      exact
        since.of_same_role rfl (fun fetched => fetched)
          (fun keeps => Or.inl keeps)
  | @keep stream key fetched complete =>
      refine since.of_same_role rfl ?_ ?_
      · intro other source otherFetched
        have different : other ≠ key := by
          intro same
          subst same
          simp at otherFetched
        simpa only [Function.update_of_ne different] using otherFetched
      · intro other source keeps
        by_cases same : other = key
        · subst same
          simp only [Function.update_self, Option.some.injEq] at keeps
          subst keeps
          exact Or.inr fetched
        · simp only [Function.update_of_ne same] at keeps
          exact Or.inl keeps
  | @drop stream key fetched complete =>
      refine
        since.of_same_role rfl ?_ (fun keeps => Or.inl keeps)
      intro other source otherFetched
      have different : other ≠ key := by
        intro same
        subst same
        simp at otherFetched
      simpa only [Function.update_of_ne different] using otherFetched
  | evict key =>
      refine since.of_same_role rfl (fun fetched => fetched) ?_
      intro other source keeps
      have different : other ≠ key := by
        intro same
        subst same
        simp at keeps
      simp only [Function.update_of_ne different] at keeps
      exact Or.inl keeps
  | receive =>
      exact
        since.of_same_role rfl (fun fetched => fetched)
          (fun keeps => Or.inl keeps)

theorem since_of_steps
    (steps : Relation.ReflTransGen (Step ended) state next) :
    Since state next := by
  induction steps with
  | refl =>
      exact Since.refl state
  | tail _ stepped inductionHypothesis =>
      exact inductionHypothesis.step stepped

end Steps

end Coalescing

/-
Ranked paging ends.  Every grow that goes on doubles `candidates_per_arm`
towards its cap, and between two grows the pages use up the pool, so a client
following `next_cursor` comes to a page without one.  A page inside a pool has
rows, and a grow that finds none grows again; only the first page can be empty
and still carry a cursor.
-/
import Localmail.RankSession

namespace Localmail

universe u v

/-! ### The loop for any configuration -/

section Regrow

variable {σ : Type v}

/-- The loop of `_continue_or_grow` on integers of any sign.  The cached pool
was built from `candidates` per arm; `grow index count` is the page that grow
number `index` returns. -/
def regrow (cap : Int) (exhausted : SearchPage σ)
    (grow : Nat → Int → Except PoolError (SearchPage σ)) :
    Nat → Nat → Int → Option (Except PoolError (SearchPage σ))
  | 0, _, _ => none
  | fuel + 1, index, candidates =>
      if cap ≤ candidates then some (.ok exhausted)
      else
        let count := min (candidates * 2) cap
        match grow index count with
        | .error raised => some (.error raised)
        | .ok answer =>
            if answer.results ≠ [] ∨ cap ≤ count ∨ count ≤ candidates then
              some (.ok answer)
            else regrow cap exhausted grow fuel (index + 1) count

/-- The loop ends: it goes on only with more candidates than before, and below
the cap. -/
theorem regrow_ends (cap : Int) (exhausted : SearchPage σ)
    (grow : Nat → Int → Except PoolError (SearchPage σ)) (fuel index : Nat)
    (candidates : Int) (hfuel : cap - candidates < fuel + 1) :
    ∃ outcome, regrow cap exhausted grow (fuel + 1) index candidates =
      some outcome := by
  induction fuel generalizing index candidates with
  | zero =>
      refine ⟨.ok exhausted, ?_⟩
      rw [regrow, if_pos (by omega)]
  | succ fuel ih =>
      rw [regrow]
      split
      · exact ⟨_, rfl⟩
      · dsimp only
        split
        · exact ⟨_, rfl⟩
        · split
          · exact ⟨_, rfl⟩
          · rename_i hagain
            obtain ⟨-, hbelow, hmore⟩ := not_or.mp hagain |>.imp id not_or.mp
            exact ih (index + 1) _ (by omega)

/-- Only the grows still to come matter. -/
theorem regrow_congr {cap : Int} {exhausted : SearchPage σ}
    {grow other : Nat → Int → Except PoolError (SearchPage σ)} (fuel : Nat)
    {index : Nat} (candidates : Int)
    (hsame : ∀ later, index ≤ later → grow later = other later) :
    regrow cap exhausted grow fuel index candidates =
      regrow cap exhausted other fuel index candidates := by
  induction fuel generalizing index candidates with
  | zero => rfl
  | succ fuel ih =>
      have hlater : ∀ later, index + 1 ≤ later → grow later = other later :=
        fun later hle => hsame later (by omega)
      simp only [regrow, hsame index (Nat.le_refl _), ih _ hlater]

end Regrow

variable {ρ : Type u} {σ : Type v} [LinearOrder σ] [Add σ]

/-- The loop over the pools is the loop over their candidates. -/
theorem growLoop_regrow (config : RankConfig σ) (worlds : Nat → Retrieval ρ σ)
    (userId : Option Nat) (page fuel index : Nat) (entry : PoolEntry ρ σ) :
    ∃ grow, (growLoop config worlds userId page fuel index entry).map
        PoolOutcome.answer =
      regrow config.candidatesPerArmMax (emptyGrownPage entry.pageSize) grow
        fuel index entry.candidatesPerArm := by
  induction fuel generalizing index entry with
  | zero => exact ⟨fun _ _ => .error .cacheMiss, rfl⟩
  | succ fuel ih =>
      generalize hgrow : (⟨worlds index, entry,
        min (entry.candidatesPerArm * 2) config.candidatesPerArmMax, page⟩ :
          Grow ρ σ) = grow
      have hgrown : (grow.after config).candidatesPerArm =
          min (entry.candidatesPerArm * 2) config.candidatesPerArmMax := by
        subst hgrow
        rfl
      have hsize : (grow.after config).pageSize = entry.pageSize := by
        subst hgrow
        rfl
      obtain ⟨later, hlater⟩ := ih (index + 1) (grow.after config)
      let here : Except PoolError (SearchPage σ) :=
        if page < entry.firstPage then .error .cacheMiss
        else continuePage (grow.after config) userId page
      refine ⟨fun number count => if number = index then here
        else later number count, ?_⟩
      have hcount : min ((entry.candidatesPerArm : Int) * 2)
          config.candidatesPerArmMax = ((grow.after config).candidatesPerArm :
            Int) := by
        rw [hgrown]
        omega
      have hrest : regrow config.candidatesPerArmMax
          (emptyGrownPage entry.pageSize) (fun number count =>
            if number = index then here else later number count) fuel
          (index + 1) (grow.after config).candidatesPerArm =
          regrow config.candidatesPerArmMax (emptyGrownPage entry.pageSize)
            later fuel (index + 1) (grow.after config).candidatesPerArm := by
        apply regrow_congr
        intro number hle
        funext count
        rw [if_neg (by omega)]
      rw [hsize] at hlater
      simp only [growLoop, regrow, hgrow, hcount, ↓reduceIte, hrest, ← hlater,
        Int.ofNat_le]
      by_cases hcap : config.candidatesPerArmMax ≤ entry.candidatesPerArm
      · simp [hcap]
      by_cases hpage : page < entry.firstPage
      · simp [hcap, hpage, here]
      simp only [hcap, hpage, here, ↓reduceIte]
      cases continuePage (grow.after config) userId page with
      | error raised => rfl
      | ok answer =>
          simp only [← hgrown]
          split
          · rfl
          · simp [Function.comp_def]

/-! ### Following the cursor -/

/-- The session after `count` requests for the latest cursor, request number
`n` answered by `worlds n`. -/
def followed (config : RankConfig σ) (worlds : Nat → Nat → Retrieval ρ σ)
    (start : RankSession ρ σ) : Nat → Option (RankSession ρ σ)
  | 0 => some start
  | count + 1 =>
      (followed config worlds start count).bind fun session =>
        sessionStep config session (.next (worlds count))

/-- However the arms answer, the client comes to a page without a cursor. -/
def PagingEnds (config : RankConfig σ) (start : RankSession ρ σ) : Prop :=
  ∀ worlds, ∃ count session,
    followed config worlds start count = some session ∧ session.latest = none

/-- The page served last has a hit, if a cursor came with it. -/
def RankSession.Shown (session : RankSession ρ σ) : Prop :=
  session.latest.isSome → ∀ answer ∈ session.answers.head?, answer.2 ≠ []

/-- No page on the client's way is empty and names a next one. -/
def NoEmptyPage (config : RankConfig σ) (start : RankSession ρ σ) : Prop :=
  ∀ worlds count session,
    followed config worlds start count = some session → session.Shown

/-- The rows of the pool after the page served last. -/
def RankSession.remaining (session : RankSession ρ σ) : Nat :=
  session.entry.hydrated.length -
    (session.presented + 1 - session.entry.firstPage) * session.entry.pageSize

theorem followed_succ {config : RankConfig σ}
    {worlds : Nat → Nat → Retrieval ρ σ} {start next : RankSession ρ σ}
    (hstep : sessionStep config start (.next (worlds 0)) = some next)
    (count : Nat) :
    followed config worlds start (count + 1) =
      followed config (fun number => worlds (number + 1)) next count := by
  induction count with
  | zero => simpa [followed] using hstep
  | succ count ih =>
      rw [followed, ih]
      rfl

omit [Add σ] in
theorem pageAnswer_results_ne_nil {entry : PoolEntry ρ σ} {page : Nat}
    (hsize : 0 < entry.pageSize)
    (hrows : (page - entry.firstPage) * entry.pageSize <
      entry.hydrated.length) (hpage : entry.firstPage ≤ page) :
    (pageAnswer entry page).results ≠ [] := by
  intro hempty
  have hlength : (buildResults entry (page + 1 - entry.firstPage)).length = 0 :=
    congrArg List.length hempty
  have hlocal : page + 1 - entry.firstPage - 1 = page - entry.firstPage := by
    omega
  simp only [buildResults, hlocal, List.length_mapIdx, List.length_take,
    List.length_drop, ordered_length] at hlength
  omega

/-- A loop that answers has grown, and found a hit or reached the cap. -/
theorem growLoop_grows {config : RankConfig σ} {worlds : Nat → Retrieval ρ σ}
    {userId : Option Nat} {page : Nat} (fuel index : Nat)
    {entry : PoolEntry ρ σ} {outcome : PoolOutcome ρ σ} {answer : SearchPage σ}
    (hpos : 1 ≤ entry.candidatesPerArm)
    (hbelow : entry.candidatesPerArm < config.candidatesPerArmMax)
    (hloop : growLoop config worlds userId page fuel index entry = some outcome)
    (hanswer : outcome.answer = .ok answer) :
    entry.candidatesPerArm < outcome.entry.candidatesPerArm ∧
      (answer.results ≠ [] ∨
        config.candidatesPerArmMax ≤ outcome.entry.candidatesPerArm) := by
  induction fuel generalizing index entry outcome with
  | zero => simp [growLoop] at hloop
  | succ fuel ih =>
      generalize hgrow : (⟨worlds index, entry,
        min (entry.candidatesPerArm * 2) config.candidatesPerArmMax, page⟩ :
          Grow ρ σ) = grow
      have hgrown : (grow.after config).candidatesPerArm =
          min (entry.candidatesPerArm * 2) config.candidatesPerArmMax := by
        subst hgrow
        rfl
      simp only [growLoop, hgrow] at hloop
      rw [if_neg (by omega)] at hloop
      split at hloop
      · obtain rfl := Option.some.inj hloop
        cases hanswer
      · split at hloop
        · obtain rfl := Option.some.inj hloop
          cases hanswer
        · split at hloop
          · rename_i hstop
            obtain rfl := Option.some.inj hloop
            cases hanswer
            refine ⟨by dsimp only; omega, ?_⟩
            rcases hstop with hhits | hcap | hsame
            · exact Or.inl hhits
            · exact Or.inr (by dsimp only; omega)
            · omega
          · rename_i hagain
            obtain ⟨-, hbelow', hmore⟩ :=
              not_or.mp hagain |>.imp id not_or.mp
            obtain ⟨rest, hrest, rfl⟩ := Option.map_eq_some_iff.mp hloop
            have hlater := ih (index + 1) (by omega) (by omega) hrest hanswer
            exact ⟨by dsimp only; omega, hlater.2⟩

theorem lt_of_succ_le_maxPage {poolSize pageSize before : Nat}
    (hsize : 0 < pageSize) (hbefore : 1 ≤ before)
    (hpage : before + 1 ≤ maxPage poolSize pageSize) :
    before * pageSize < poolSize := by
  have hceil : before + 1 ≤ (poolSize + pageSize - 1) / pageSize := by
    rcases Nat.le_total 1 ((poolSize + pageSize - 1) / pageSize) with hle | hle
    · rwa [maxPage, Nat.max_eq_right hle] at hpage
    · rw [maxPage, Nat.max_eq_left hle] at hpage
      omega
  have hmul := (Nat.le_div_iff_mul_le hsize).mp hceil
  rw [Nat.succ_mul] at hmul
  omega

section Advance

variable {config : RankConfig σ} {session : RankSession ρ σ}

/-- The next request moves on in the pool, or grows it: then it finds a hit or
reaches the cap. -/
theorem SessionInv.progress (hinv : SessionInv config session)
    (hpos : 1 ≤ session.entry.candidatesPerArm) {page : Nat}
    (hlatest : session.latest = some page) (worlds : Nat → Retrieval ρ σ)
    {outcome : PoolOutcome ρ σ}
    (houtcome : continueOrGrow config worlds session.userId page
      session.entry = some outcome) {answer : SearchPage σ}
    (hanswer : outcome.answer = .ok answer) :
    outcome.entry = session.entry ∧
        (page - session.entry.firstPage) * session.entry.pageSize <
          session.entry.hydrated.length ∨
      session.entry.candidatesPerArm < config.candidatesPerArmMax ∧
        session.entry.candidatesPerArm < outcome.entry.candidatesPerArm ∧
        (answer.results ≠ [] ∨
          config.candidatesPerArmMax ≤ outcome.entry.candidatesPerArm) := by
  have hsize := hinv.size_pos
  have hfirst := hinv.first_le
  obtain ⟨rfl, hmore⟩ := hinv.latest page hlatest
  unfold continueOrGrow at houtcome
  split at houtcome
  · rename_i hcontinue
    obtain rfl := Option.some.inj houtcome
    refine Or.inl ⟨rfl, lt_of_succ_le_maxPage hsize (by omega) ?_⟩
    unfold continuePage at hcontinue
    split at hcontinue
    · cases hcontinue
    split at hcontinue
    · cases hcontinue
    split at hcontinue
    · cases hcontinue
    · omega
  · obtain rfl := Option.some.inj houtcome
    cases hanswer
  · rename_i hcontinue
    have hpast : session.entry.hydrated.length ≤
        (session.presented + 1 - session.entry.firstPage) *
          session.entry.pageSize := by
      refine (hinv.exhausted ?_).past
      unfold continuePage at hcontinue
      split at hcontinue
      · cases hcontinue
      split at hcontinue
      · cases hcontinue
      split at hcontinue
      · omega
      · cases hcontinue
    have hbelow := hmore.resolve_left (by omega)
    exact Or.inr ⟨hbelow, growLoop_grows _ _ hpos hbelow houtcome hanswer⟩

/-- One request on the client's way: it is answered, it uses up rows of the
pool or growth, and its page is not empty if it carries a cursor. -/
theorem SessionInv.advance (hinv : SessionInv config session)
    (hpos : 1 ≤ session.entry.candidatesPerArm) {page : Nat}
    (hlatest : session.latest = some page) (worlds : Nat → Retrieval ρ σ) :
    ∃ next, sessionStep config session (.next worlds) = some next ∧
      SessionInv config next ∧ 1 ≤ next.entry.candidatesPerArm ∧ next.Shown ∧
      (next.entry = session.entry ∧ next.remaining < session.remaining ∨
        config.candidatesPerArmMax - next.entry.candidatesPerArm <
          config.candidatesPerArmMax - session.entry.candidatesPerArm) := by
  obtain ⟨⟨_, entry, grows⟩, houtcome, hanswer, hnext⟩ :=
    hinv.request (Or.inl hlatest) worlds
  dsimp only at hanswer
  subst hanswer
  have hprogress := hinv.progress hpos hlatest worlds houtcome rfl
  obtain ⟨rfl, -⟩ := hinv.latest page hlatest
  have hsize := hnext.size_pos
  have hfirst := hnext.first_le
  refine ⟨_, ?_, hnext, ?_, ?_, ?_⟩
  · simp only [sessionStep, hlatest, RankSession.ask, houtcome]
    rfl
  · rcases hprogress with ⟨hsame, -⟩ | ⟨-, hmore, -⟩
    · dsimp only at hsame
      change 1 ≤ entry.candidatesPerArm
      rw [hsame]
      exact hpos
    · dsimp only at hmore
      change 1 ≤ entry.candidatesPerArm
      omega
  · intro hcursor answer hhead
    obtain rfl : _ = answer := Option.some.inj hhead
    obtain ⟨number, hnumber⟩ := Option.isSome_iff_exists.mp hcursor
    have hwhy := (nextCursor_pageAnswer hnumber).2
    have hrows : (session.presented + 1 - entry.firstPage) * entry.pageSize <
        entry.hydrated.length → (pageAnswer entry
          (session.presented + 1)).results ≠ [] :=
      fun hmore => pageAnswer_results_ne_nil hsize hmore hfirst
    rcases hprogress with ⟨rfl, hinPool⟩ | ⟨-, -, hhits | hcap⟩
    · exact hrows hinPool
    · exact hhits
    · -- At the cap only a row after this page explains the cursor.
      apply hrows
      have hmore := hwhy.resolve_right (Nat.not_lt.mpr hcap)
      have hle : (session.presented + 1 - entry.firstPage) * entry.pageSize ≤
          (session.presented + 1 + 1 - entry.firstPage) * entry.pageSize :=
        Nat.mul_le_mul_right _ (by omega)
      exact Nat.lt_of_le_of_lt hle hmore
  · rcases hprogress with ⟨rfl, hinPool⟩ | ⟨hbelow, hmore, -⟩
    · refine Or.inl ⟨rfl, ?_⟩
      have hsucc : session.presented + 1 + 1 - session.entry.firstPage =
          session.presented + 1 - session.entry.firstPage + 1 := by
        have := hinv.first_le
        omega
      change session.entry.hydrated.length -
          (session.presented + 1 + 1 - session.entry.firstPage) *
            session.entry.pageSize < session.entry.hydrated.length - _
      rw [hsucc, Nat.succ_mul]
      have hpositive : 0 < session.entry.pageSize := hinv.size_pos
      omega
    · refine Or.inr ?_
      change config.candidatesPerArmMax - entry.candidatesPerArm < _
      dsimp only at hmore
      omega

/-- Following the cursor ends. -/
theorem SessionInv.ends {session : RankSession ρ σ}
    (hinv : SessionInv config session)
    (hpos : 1 ≤ session.entry.candidatesPerArm)
    (worlds : Nat → Nat → Retrieval ρ σ) :
    ∃ count final, followed config worlds session count = some final ∧
      final.latest = none := by
  cases hlatest : session.latest with
  | none => exact ⟨0, session, rfl, hlatest⟩
  | some page =>
      obtain ⟨next, hstep, hnext, hnextPos, -, hless⟩ :=
        hinv.advance hpos hlatest (worlds 0)
      obtain ⟨count, final, hfollowed, hend⟩ :=
        hnext.ends hnextPos fun number => worlds (number + 1)
      exact ⟨count + 1, final, (followed_succ hstep count).trans hfollowed,
        hend⟩
termination_by (config.candidatesPerArmMax - session.entry.candidatesPerArm,
  session.remaining)
decreasing_by
  rcases hless with ⟨hsame, hrows⟩ | hgrowth
  · rw [hsame]
    exact Prod.Lex.right _ hrows
  · exact Prod.Lex.left _ _ hgrowth

/-- Only the first page can be empty and carry a cursor. -/
theorem followed_shown (hinv : SessionInv config session)
    (hpos : 1 ≤ session.entry.candidatesPerArm) (hshown : session.Shown)
    (worlds : Nat → Nat → Retrieval ρ σ) (count : Nat) {final : RankSession ρ σ}
    (hfollowed : followed config worlds session count = some final) :
    SessionInv config final ∧ 1 ≤ final.entry.candidatesPerArm ∧
      final.Shown := by
  induction count generalizing final with
  | zero =>
      obtain rfl := Option.some.inj hfollowed
      exact ⟨hinv, hpos, hshown⟩
  | succ count ih =>
      obtain ⟨before, hbefore, hstep⟩ := Option.bind_eq_some_iff.mp hfollowed
      obtain ⟨hbeforeInv, hbeforePos, -⟩ := ih hbefore
      cases hlatest : before.latest with
      | none => simp [sessionStep, hlatest] at hstep
      | some page =>
          obtain ⟨next, hnext, hnextInv, hnextPos, hnextShown, -⟩ :=
            hbeforeInv.advance hbeforePos hlatest (worlds count)
          obtain rfl := Option.some.inj (hnext.symm.trans hstep)
          exact ⟨hnextInv, hnextPos, hnextShown⟩

end Advance

/-! ### The first page -/

section FirstPage

variable {config : RankConfig σ} {world : Retrieval ρ σ} {parsed : ρ}
  {candidatesPerArm rerankPoolSize pageSize : Nat} {userId : Option Nat}

/-- One of the hits left by the fusion and the cut still has its message. -/
def FirstHit (config : RankConfig σ) (world : Retrieval ρ σ) (parsed : ρ)
    (candidatesPerArm rerankPoolSize : Nat) : Prop :=
  ∃ hit ∈ retrievePool config world parsed candidatesPerArm rerankPoolSize [],
    (world.messages hit.messageId).isSome

theorem freshPool_ne_nil_iff :
    (freshPool config world parsed candidatesPerArm rerankPoolSize pageSize
        userId).hydrated ≠ [] ↔
      FirstHit config world parsed candidatesPerArm rerankPoolSize := by
  constructor
  · intro hne
    obtain ⟨item, hitem⟩ := List.exists_mem_of_ne_nil _ hne
    obtain ⟨hmem, hmessage⟩ := mem_hydrate.mp hitem
    exact ⟨item.fused, hmem, by simp [hmessage]⟩
  · rintro ⟨hit, hhit, hmessage⟩ hnil
    obtain ⟨msg, hmsg⟩ := Option.isSome_iff_exists.mp hmessage
    have hitem : (⟨hit, msg⟩ : HydratedHit σ) ∈ (freshPool config world parsed
        candidatesPerArm rerankPoolSize pageSize userId).hydrated :=
      mem_hydrate.mpr ⟨hhit, hmsg⟩
    rw [hnil] at hitem
    exact List.not_mem_nil hitem

theorem startSession_shown_iff (hsize : 1 ≤ pageSize) :
    (startSession config world parsed candidatesPerArm rerankPoolSize pageSize
        userId).Shown ↔
      config.candidatesPerArmMax ≤ candidatesPerArm ∨
        FirstHit config world parsed candidatesPerArm rerankPoolSize := by
  rw [← freshPool_ne_nil_iff]
  generalize hentry : freshPool config world parsed candidatesPerArm
    rerankPoolSize pageSize userId = entry
  have hfirst : entry.firstPage = 1 := by rw [← hentry]; rfl
  have hpageSize : entry.pageSize = pageSize := by rw [← hentry]; rfl
  have hcandidates : entry.candidatesPerArm = candidatesPerArm := by
    rw [← hentry]
    rfl
  have hshown : (startSession config world parsed candidatesPerArm
      rerankPoolSize pageSize userId).Shown ↔
        ((nextCursor config (pageAnswer entry 1)).isSome →
          (pageAnswer entry 1).results ≠ []) := by
    simp [RankSession.Shown, startSession, hentry]
  have hrows : entry.hydrated ≠ [] → (pageAnswer entry 1).results ≠ [] := by
    intro hne
    have hlength := List.length_pos_of_ne_nil hne
    apply pageAnswer_results_ne_nil
    · omega
    · simpa [hfirst] using hlength
    · omega
  rw [hshown]
  constructor
  · intro hkept
    by_contra hneither
    obtain ⟨hbelow, hnil⟩ := not_or.mp hneither
    have hempty : entry.hydrated = [] := not_not.mp hnil
    have hcursor : (nextCursor config (pageAnswer entry 1)).isSome := by
      simp [nextCursor, pageAnswer, hempty, hcandidates]
      omega
    apply hkept hcursor
    apply List.eq_nil_of_length_eq_zero
    simp [pageAnswer, buildResults, ordered_length, hempty]
  · rintro (hcap | hne) hcursor
    · obtain ⟨number, hnumber⟩ := Option.isSome_iff_exists.mp hcursor
      have hmore := (nextCursor_pageAnswer hnumber).2.resolve_right (by omega)
      apply hrows
      apply List.ne_nil_of_length_pos
      omega
    · exact hrows hne

end FirstPage

/-- Ranked paging from a first page with at least one candidate per arm and
one row per page: the cursors end, the grow loop ends for all integers, and no
page is empty and carries a cursor, exactly if the pool starts at the cap or
the first retrieval finds a message. -/
theorem rank_paging_ends_iff (config : RankConfig σ) (world : Retrieval ρ σ)
    (parsed : ρ) (candidatesPerArm rerankPoolSize pageSize : Nat)
    (userId : Option Nat) (hcandidates : 1 ≤ candidatesPerArm)
    (hsize : 1 ≤ pageSize) :
    (PagingEnds config (startSession config world parsed candidatesPerArm
        rerankPoolSize pageSize userId) ∧
      (∀ (cap candidates : Int) (exhausted : SearchPage σ)
        (grow : Nat → Int → Except PoolError (SearchPage σ)),
        ∃ fuel outcome,
          regrow cap exhausted grow fuel 0 candidates = some outcome) ∧
      NoEmptyPage config (startSession config world parsed candidatesPerArm
        rerankPoolSize pageSize userId)) ↔
    config.candidatesPerArmMax ≤ candidatesPerArm ∨
      FirstHit config world parsed candidatesPerArm rerankPoolSize := by
  have hinv := sessionInv_start config world parsed candidatesPerArm
    rerankPoolSize hsize userId
  have hpos : 1 ≤ (startSession config world parsed candidatesPerArm
      rerankPoolSize pageSize userId).entry.candidatesPerArm := hcandidates
  rw [← startSession_shown_iff hsize]
  constructor
  · rintro ⟨-, -, hshown⟩
    exact hshown (fun _ _ => world) 0 _ rfl
  · intro hshown
    refine ⟨fun worlds => hinv.ends hpos worlds, ?_, ?_⟩
    · intro cap candidates exhausted grow
      obtain ⟨outcome, houtcome⟩ := regrow_ends cap exhausted grow
        (cap - candidates).toNat 0 candidates (by omega)
      exact ⟨_, outcome, houtcome⟩
    · intro worlds count session hfollowed
      exact (followed_shown hinv hpos hshown worlds count hfollowed).2.2

namespace RankEndsWitness

/-- The arms know no message at all. -/
def silentWorld : Retrieval Unit Nat :=
  { RankWitness.world with arms := fun _ _ => [[]] }

/-- One candidate per arm, four at most; one row a page. -/
def emptyStart : RankSession Unit Nat :=
  startSession RankWitness.config silentWorld () 1 4 1 none

end RankEndsWitness

open RankEndsWitness in
/-- A search without a match answers with an empty page and a cursor. -/
theorem rank_first_page_empty_with_cursor :
    emptyStart.answers = [(1, [])] ∧ emptyStart.latest = some 2 ∧
      ¬ NoEmptyPage RankWitness.config emptyStart := by
  have hanswers : emptyStart.answers = [(1, [])] := rfl
  have hlatest : emptyStart.latest = some 2 := rfl
  refine ⟨hanswers, hlatest, ?_⟩
  intro hclaim
  have hshown := hclaim (fun _ _ => silentWorld) 0 emptyStart rfl
  exact hshown (by simp [hlatest]) (1, []) (by simp [hanswers]) rfl

open RankWitness in
/-- With a match on the first page the same configuration pages to the end. -/
theorem rank_paging_ends_iff_matched :
    PagingEnds config start ∧ NoEmptyPage config start := by
  have hends := (rank_paging_ends_iff config world () 1 4 1 none (by decide)
    (by decide)).mpr (Or.inr ⟨⟨1, none, .message, 16393, [0]⟩, by decide, rfl⟩)
  exact ⟨hends.1, hends.2.2⟩

end Localmail

/-
Scores the reranker could not give.  `finite_scores` keeps the usable scores
and puts every other row below them; where there is no place below, it gives
the whole page the fused scores.
-/
import Localmail.PoolOrder
import Mathlib.Data.Finset.Max
import Mathlib.Data.Fintype.Basic

namespace Localmail

universe v

/-- A float; `σ` holds the finite ones. -/
inductive PyFloat (σ : Type v) where
  | finite (value : σ)
  | nan
  | infinity (negative : Bool)
deriving Repr, DecidableEq

section Scores

variable {σ : Type v}

def PyFloat.value : PyFloat σ → Option σ
  | .finite value => some value
  | .nan | .infinity _ => none

/-- `math.isfinite`. -/
def PyFloat.isFinite (score : PyFloat σ) : Bool := score.value.isSome

@[simp] theorem PyFloat.isFinite_finite (value : σ) :
    (PyFloat.finite value).isFinite = true := rfl

theorem PyFloat.isFinite_iff {score : PyFloat σ} :
    score.isFinite = true ↔ ∃ value, score = .finite value := by
  cases score with
  | finite value => exact iff_of_true rfl ⟨value, rfl⟩
  | nan => exact iff_of_false Bool.false_ne_true nofun
  | infinity negative => exact iff_of_false Bool.false_ne_true nofun

theorem PyFloat.value_eq_some_iff {score : PyFloat σ} {value : σ} :
    score.value = some value ↔ score = .finite value := by
  cases score <;> simp [PyFloat.value]

/-- The finite scores. -/
def usable (scores : List (PyFloat σ)) : List σ :=
  scores.filterMap PyFloat.value

theorem mem_usable {scores : List (PyFloat σ)} {value : σ} :
    value ∈ usable scores ↔ .finite value ∈ scores := by
  simp [usable, PyFloat.value_eq_some_iff]

/-- The scores, and how many of them are substitutes. -/
structure FiniteScores (σ : Type v) where
  scores : List (PyFloat σ)
  replaced : Nat
deriving Repr, DecidableEq

/-- `ValueError`. -/
inductive RerankError where
  | lengthMismatch (scores fallback : Nat)
deriving Repr, DecidableEq

variable [LinearOrder σ] [Fintype σ]

/-- `math.nextafter(value, -math.inf)`. -/
def nextBelow (value : σ) : PyFloat σ :=
  match (Finset.univ.filter (· < value)).max with
  | none => .infinity true
  | some below => .finite below

/-- The substitute for a score that is not finite. -/
def unscored (scores : List (PyFloat σ)) : PyFloat σ :=
  match (usable scores).min? with
  | some least => nextBelow least
  | none => .infinity true

def finiteScores (scores fallback : List (PyFloat σ)) :
    Except RerankError (FiniteScores σ) :=
  if scores.length ≠ fallback.length then
    .error (.lengthMismatch scores.length fallback.length)
  else if !(unscored scores).isFinite then .ok ⟨fallback, scores.length⟩
  else
    .ok ⟨scores.map fun score =>
        if score.isFinite then score else unscored scores,
      scores.length - (usable scores).length⟩

/-- `_safe_rerank`, with no scores from a reranker that raised. -/
def safeRerank (raw : Option (List (PyFloat σ))) (fallback : List (PyFloat σ)) :
    Except RerankError (List (PyFloat σ)) :=
  match raw with
  | none => .ok fallback
  | some scores => (finiteScores scores fallback).map FiniteScores.scores

/-! ### The substitute -/

/-- Below the least finite value there is only minus infinity. -/
theorem nextBelow_of_isBot {value : σ} (hbot : IsBot value) :
    nextBelow value = .infinity true := by
  have hempty : Finset.univ.filter (· < value) = ∅ := by
    apply Finset.filter_eq_empty_iff.mpr
    intro other _
    exact not_lt.mpr (hbot other)
  rw [nextBelow, hempty, Finset.max_empty]

theorem nextBelow_of_not_isBot {value : σ} (hbot : ¬ IsBot value) :
    ∃ below, below < value ∧ nextBelow value = .finite below := by
  obtain ⟨lower, hlower⟩ : ∃ lower, lower < value := by
    simpa [IsBot] using hbot
  have hmem : lower ∈ Finset.univ.filter (· < value) := by simpa using hlower
  obtain ⟨below, hbelow⟩ := Finset.max_of_mem hmem
  refine ⟨below, ?_, ?_⟩
  · simpa using Finset.mem_of_max hbelow
  · rw [nextBelow, hbelow]

/-- The batch has no place below its finite scores. -/
def NoPlaceBelow (scores : List (PyFloat σ)) : Prop :=
  (∀ score ∈ scores, score.isFinite = false) ∨
    ∃ least, IsBot least ∧ .finite least ∈ scores

omit [Fintype σ] in
theorem usable_min?_eq_some {scores : List (PyFloat σ)} {least : σ}
    (hleast : (usable scores).min? = some least) :
    .finite least ∈ scores ∧ ∀ value, .finite value ∈ scores → least ≤ value := by
  obtain ⟨hmem, hall⟩ := List.min?_eq_some_iff.mp hleast
  exact ⟨mem_usable.mp hmem, fun value hvalue =>
    hall value (mem_usable.mpr hvalue)⟩

theorem unscored_of_noPlaceBelow {scores : List (PyFloat σ)}
    (hnone : NoPlaceBelow scores) : (unscored scores).isFinite = false := by
  unfold unscored
  cases hleast : (usable scores).min? with
  | none => rfl
  | some least =>
      obtain ⟨hmem, hall⟩ := usable_min?_eq_some hleast
      obtain hunusable | ⟨bot, hbot, hin⟩ := hnone
      · exact absurd (hunusable _ hmem) (by simp)
      · obtain rfl : bot = least := le_antisymm (hbot least) (hall bot hin)
        change (nextBelow bot).isFinite = false
        rw [nextBelow_of_isBot hbot]
        rfl

theorem unscored_of_place {scores : List (PyFloat σ)}
    (hplace : ¬ NoPlaceBelow scores) :
    ∃ below, unscored scores = .finite below ∧
      ∀ value, .finite value ∈ scores → below < value := by
  obtain ⟨husable, hbot⟩ := not_or.mp hplace
  unfold unscored
  cases hleast : (usable scores).min? with
  | none =>
      exfalso
      apply husable
      intro score hscore
      cases score with
      | nan => rfl
      | infinity negative => rfl
      | finite value =>
          rw [List.min?_eq_none_iff] at hleast
          have hmem := mem_usable.mpr hscore
          rw [hleast] at hmem
          cases hmem
  | some least =>
      obtain ⟨hmem, hall⟩ := usable_min?_eq_some hleast
      obtain ⟨below, hbelow, hnext⟩ :=
        nextBelow_of_not_isBot fun hleastBot => hbot ⟨least, hleastBot, hmem⟩
      exact ⟨below, hnext, fun value hvalue => hbelow.trans_le (hall value hvalue)⟩

/-! ### What is promised of the scores -/

/-- Every finite score stays in its place, and every other row is strictly
below all of them. -/
structure UsableKept (scores result : List (PyFloat σ)) : Prop where
  kept : ∀ (index : Nat) (value : σ), scores[index]? = some (.finite value) →
    result[index]? = some (.finite value)
  below : ∀ (index : Nat) (score : PyFloat σ), scores[index]? = some score →
    score.isFinite = false →
      ∃ below, result[index]? = some (.finite below) ∧
        ∀ value, .finite value ∈ scores → below < value

/-- A row of a page with the reranker's own score and the one it is given. -/
structure RerankedRow (σ : Type v) where
  date : Option Int
  messageId : Nat
  own : PyFloat σ
  given : PyFloat σ

/-- Finite floats compare as their values. -/
def RerankedRow.ownKey (row : RerankedRow σ) :
    WithBot σ ×ₗ WithBot Int ×ₗ Nat :=
  relevanceKey row.own.value row.date row.messageId

def RerankedRow.givenKey (row : RerankedRow σ) :
    WithBot σ ×ₗ WithBot Int ×ₗ Nat :=
  relevanceKey row.given.value row.date row.messageId

/-- The rows the reranker scored are in the order of their own scores, dates
and ids, and the others come after them. -/
def OrdersScored (scores result : List (PyFloat σ)) : Prop :=
  ∀ rows : List (RerankedRow σ), rows.map RerankedRow.own = scores →
    rows.map RerankedRow.given = result →
      (sortDescending RerankedRow.givenKey rows).filter
          (fun row => row.own.isFinite) =
        sortDescending RerankedRow.ownKey
          (rows.filter fun row => row.own.isFinite) ∧
      (sortDescending RerankedRow.givenKey rows).Pairwise
        fun row later => later.own.isFinite = true → row.own.isFinite = true

structure UsableUndisturbed (scores fallback : List (PyFloat σ))
    (checked : FiniteScores σ) : Prop where
  length : checked.scores.length = scores.length
  finite : ∀ score ∈ checked.scores, score.isFinite = true
  unchanged : (∀ score ∈ scores, score.isFinite = true) →
    checked.scores = scores ∧ checked.replaced = 0
  demoted : (∃ score ∈ scores, score.isFinite = false) →
    UsableKept scores checked.scores ∨
      checked.scores = fallback ∧ NoPlaceBelow scores
  ordered : checked.scores = scores ∨ UsableKept scores checked.scores →
    OrdersScored scores checked.scores

/-- Every score is finite and one of them is the least there is. -/
def AtFloor (scores : List (PyFloat σ)) : Prop :=
  (∀ score ∈ scores, score.isFinite = true) ∧
    ∃ least, IsBot least ∧ .finite least ∈ scores

/-! ### Sorting -/

section Rows

omit [Fintype σ]

variable {rows : List (RerankedRow σ)} {row : RerankedRow σ}

omit [LinearOrder σ] in
theorem getElem?_own_given (hrow : row ∈ rows) :
    ∃ index : Nat, (rows.map RerankedRow.own)[index]? = some row.own ∧
      (rows.map RerankedRow.given)[index]? = some row.given := by
  obtain ⟨index, hindex⟩ := List.mem_iff_getElem?.mp hrow
  exact ⟨index, by simp [hindex], by simp [hindex]⟩

theorem UsableKept.given_eq_own
    (hkept : UsableKept (rows.map RerankedRow.own) (rows.map RerankedRow.given))
    (hrow : row ∈ rows) (hfinite : row.own.isFinite = true) :
    row.given = row.own := by
  obtain ⟨index, hown, hgiven⟩ := getElem?_own_given hrow
  obtain ⟨value, hvalue⟩ := PyFloat.isFinite_iff.mp hfinite
  rw [hvalue] at hown
  rw [hkept.kept index value hown] at hgiven
  rw [hvalue, Option.some.inj hgiven]

theorem UsableKept.givenKey_lt
    (hkept : UsableKept (rows.map RerankedRow.own) (rows.map RerankedRow.given))
    {scored : RerankedRow σ} (hrow : row ∈ rows) (hscored : scored ∈ rows)
    (hunusable : row.own.isFinite = false)
    (hfinite : scored.own.isFinite = true) :
    row.givenKey < scored.givenKey := by
  obtain ⟨index, hown, hgiven⟩ := getElem?_own_given hrow
  obtain ⟨below, hbelow, hall⟩ := hkept.below index row.own hown hunusable
  obtain ⟨value, hvalue⟩ := PyFloat.isFinite_iff.mp hfinite
  have hlt : below < value :=
    hall value (hvalue ▸ List.mem_map_of_mem hscored)
  rw [hgiven] at hbelow
  apply Prod.Lex.toLex_lt_toLex.mpr
  left
  rw [hkept.given_eq_own hscored hfinite, hvalue, Option.some.inj hbelow]
  exact WithBot.coe_lt_coe.mpr hlt

/-- Where the usable scores are kept, the sort keeps their order. -/
theorem UsableKept.orders {scores result : List (PyFloat σ)}
    (hkept : UsableKept scores result) : OrdersScored scores result := by
  rintro rows rfl rfl
  constructor
  · rw [sortDescending_filter]
    have hsame := List.map_insertionSort
      (NotAfter (· > ·) RerankedRow.givenKey)
      (NotAfter (· > ·) RerankedRow.ownKey) id
      (rows.filter fun row => row.own.isFinite) (by
        intro row hrow later hlater
        obtain ⟨hin, hfinite⟩ := List.mem_filter.mp hrow
        obtain ⟨hlaterIn, hlaterFinite⟩ := List.mem_filter.mp hlater
        unfold NotAfter RerankedRow.givenKey RerankedRow.ownKey
        rw [hkept.given_eq_own hin hfinite,
          hkept.given_eq_own hlaterIn hlaterFinite]
        exact Iff.rfl)
    rw [List.map_id, List.map_id] at hsame
    exact hsame
  · have hsorted := sortDescending_sorted RerankedRow.givenKey rows
    have hmem : ∀ row ∈ sortDescending RerankedRow.givenKey rows,
        row ∈ rows :=
      fun row hrow => (sortDescending_perm _ rows).mem_iff.mp hrow
    refine hsorted.imp_of_mem ?_
    intro row later hrow hlater hnotAfter hfinite
    by_contra hunusable
    exact hnotAfter (hkept.givenKey_lt (hmem row hrow) (hmem later hlater)
      (eq_false_of_ne_true hunusable) hfinite)

theorem usableKept_refl {scores : List (PyFloat σ)}
    (hfinite : ∀ score ∈ scores, score.isFinite = true) :
    UsableKept scores scores where
  kept := fun _ _ hscore => hscore
  below := by
    intro index score hscore hunusable
    rw [hfinite score (List.mem_of_getElem? hscore)] at hunusable
    cases hunusable

end Rows

/-! ### The scores -/

variable {scores fallback : List (PyFloat σ)}

/-- With a place below, the substitute stands for what is not finite. -/
theorem finiteScores_of_place (hlength : scores.length = fallback.length)
    (hplace : ¬ NoPlaceBelow scores) :
    ∃ below, (∀ value, .finite value ∈ scores → below < value) ∧
      finiteScores scores fallback = .ok
        ⟨scores.map fun score => if score.isFinite then score else .finite below,
          scores.length - (usable scores).length⟩ := by
  obtain ⟨below, hunscored, hbelow⟩ := unscored_of_place hplace
  refine ⟨below, hbelow, ?_⟩
  unfold finiteScores
  rw [if_neg (not_not.mpr hlength), hunscored]
  rfl

theorem finiteScores_of_noPlaceBelow
    (hlength : scores.length = fallback.length) (hnone : NoPlaceBelow scores) :
    finiteScores scores fallback = .ok ⟨fallback, scores.length⟩ := by
  unfold finiteScores
  rw [if_neg (not_not.mpr hlength), unscored_of_noPlaceBelow hnone]
  rfl

omit [LinearOrder σ] [Fintype σ] in
theorem length_usable (hfinite : ∀ score ∈ scores, score.isFinite = true) :
    (usable scores).length = scores.length := by
  rw [usable, List.length_filterMap_eq_countP, List.countP_eq_length]
  exact hfinite

omit [Fintype σ] in
theorem usableKept_map {below : σ}
    (hbelow : ∀ value, .finite value ∈ scores → below < value) :
    UsableKept scores
      (scores.map fun score =>
        if score.isFinite then score else .finite below) where
  kept := by
    intro index value hscore
    simp [hscore]
  below := by
    intro index score hscore hunusable
    exact ⟨below, by simp [hscore, hunusable], hbelow⟩

omit [LinearOrder σ] [Fintype σ] in
theorem map_eq_self_of_finite {below : σ}
    (hfinite : ∀ score ∈ scores, score.isFinite = true) :
    scores.map (fun score => if score.isFinite then score else .finite below) =
      scores := by
  calc scores.map _ = scores.map id :=
        List.map_congr_left fun score hscore => if_pos (hfinite score hscore)
    _ = scores := List.map_id scores

theorem undisturbed_of_place (hlength : scores.length = fallback.length)
    (hplace : ¬ NoPlaceBelow scores) :
    ∃ checked, finiteScores scores fallback = .ok checked ∧
      UsableUndisturbed scores fallback checked := by
  obtain ⟨below, hbelow, hchecked⟩ := finiteScores_of_place hlength hplace
  have hkept := usableKept_map hbelow
  refine ⟨_, hchecked, List.length_map _, ?_, ?_, fun _ => .inl hkept,
    fun _ => hkept.orders⟩
  · intro score hscore
    obtain ⟨own, -, rfl⟩ := List.mem_map.mp hscore
    split
    · assumption
    · rfl
  · intro hfinite
    constructor
    · exact map_eq_self_of_finite hfinite
    · rw [length_usable hfinite]
      exact Nat.sub_self _

omit [Fintype σ] in
/-- The fallback is a proper answer, unless every score was usable. -/
theorem undisturbed_of_noPlaceBelow
    (hlength : scores.length = fallback.length)
    (hfallback : ∀ score ∈ fallback, score.isFinite = true)
    (hnone : NoPlaceBelow scores) (hfloor : ¬ AtFloor scores) :
    UsableUndisturbed scores fallback ⟨fallback, scores.length⟩ where
  length := hlength.symm
  finite := hfallback
  unchanged := by
    intro hfinite
    obtain hunusable | hbot := hnone
    · -- all finite and none finite: there is no score
      obtain rfl : scores = [] := by
        apply List.eq_nil_iff_forall_not_mem.mpr
        intro score hscore
        have hboth := (hfinite score hscore).symm.trans (hunusable score hscore)
        cases hboth
      exact ⟨List.length_eq_zero_iff.mp hlength.symm, rfl⟩
    · exact absurd ⟨hfinite, hbot⟩ hfloor
  demoted := fun _ => .inr ⟨rfl, hnone⟩
  ordered := by
    rintro (hsame | hkept)
    · change fallback = scores at hsame
      subst hsame
      exact (usableKept_refl hfallback).orders
    · exact hkept.orders

omit [Fintype σ] in
theorem not_undisturbed_of_atFloor (hfloor : AtFloor scores) :
    ¬ UsableUndisturbed scores fallback ⟨fallback, scores.length⟩ := by
  intro hundisturbed
  obtain ⟨hfinite, least, -, hleast⟩ := hfloor
  have hzero : scores.length = 0 := (hundisturbed.unchanged hfinite).2
  rw [List.length_eq_zero_iff.mp hzero] at hleast
  cases hleast

/-- Unusable scores disturb no usable one, exactly unless all the scores are
finite and one is the least there is: then `finite_scores` finds no place for a
substitute that it does not need. -/
theorem unusable_scores_undisturbing_iff (scores fallback : List (PyFloat σ))
    (hlength : scores.length = fallback.length)
    (hfallback : ∀ score ∈ fallback, score.isFinite = true) :
    (∃ checked, finiteScores scores fallback = .ok checked ∧
      UsableUndisturbed scores fallback checked) ↔ ¬ AtFloor scores := by
  by_cases hplace : NoPlaceBelow scores
  · have hchecked := finiteScores_of_noPlaceBelow hlength hplace
    constructor
    · rintro ⟨checked, hscores, hundisturbed⟩ hfloor
      obtain rfl := Except.ok.inj (hchecked.symm.trans hscores)
      exact not_undisturbed_of_atFloor hfloor hundisturbed
    · intro hfloor
      exact ⟨_, hchecked,
        undisturbed_of_noPlaceBelow hlength hfallback hplace hfloor⟩
  · apply iff_of_true (undisturbed_of_place hlength hplace)
    rintro ⟨-, hbot⟩
    exact hplace (.inr hbot)

/-- Whatever the reranker answers, no score of the page is out of order. -/
theorem safeRerank_finite {raw : Option (List (PyFloat σ))}
    {checked : List (PyFloat σ)}
    (hfallback : ∀ score ∈ fallback, score.isFinite = true)
    (hchecked : safeRerank raw fallback = .ok checked) :
    ∀ score ∈ checked, score.isFinite = true := by
  cases raw with
  | none => exact Except.ok.inj hchecked ▸ hfallback
  | some scores =>
      by_cases hlength : scores.length = fallback.length
      · by_cases hplace : NoPlaceBelow scores
        · rw [safeRerank, finiteScores_of_noPlaceBelow hlength hplace] at hchecked
          exact Except.ok.inj hchecked ▸ hfallback
        · obtain ⟨result, hresult, hundisturbed⟩ :=
            undisturbed_of_place hlength hplace
          rw [safeRerank, hresult] at hchecked
          exact Except.ok.inj hchecked ▸ hundisturbed.finite
      · rw [safeRerank, finiteScores, if_pos hlength] at hchecked
        cases hchecked

end Scores

section Witness

/-- One score of three cannot be used. -/
theorem unusable_scores_undisturbing_iff_nan :
    ∃ checked : FiniteScores (Fin 4),
      finiteScores [.finite 3, .nan, .finite 1]
        [.finite 0, .finite 1, .finite 2] = .ok checked ∧
      UsableUndisturbed [.finite 3, .nan, .finite 1]
        [.finite 0, .finite 1, .finite 2] checked := by
  apply (unusable_scores_undisturbing_iff [.finite 3, .nan, .finite 1]
    [.finite 0, .finite 1, .finite 2] rfl (by decide)).mpr
  rintro ⟨hfinite, -⟩
  exact absurd (hfinite .nan (by decide)) (by decide)

/-- Two usable scores are given up for the fused ones. -/
theorem floor_scores_replaced :
    ¬ ∀ scores fallback : List (PyFloat (Fin 4)),
      scores.length = fallback.length →
      (∀ score ∈ fallback, score.isFinite = true) →
      ∃ checked, finiteScores scores fallback = .ok checked ∧
        UsableUndisturbed scores fallback checked := by
  intro hclaim
  obtain ⟨checked, hscores, hundisturbed⟩ := hclaim [.finite 3, .finite 0]
    [.finite 1, .finite 2] rfl (by decide)
  have hchecked : finiteScores [.finite 3, .finite 0] [.finite 1, .finite 2] =
      .ok (⟨[.finite 1, .finite 2], 2⟩ : FiniteScores (Fin 4)) := by decide
  rw [hchecked] at hscores
  obtain rfl := Except.ok.inj hscores
  have hreplaced := (hundisturbed.unchanged (by decide)).2
  cases hreplaced

end Witness

end Localmail

/-
The rewrites that a language model made of a query, kept for the day and for a
while.  Many requests are under way at a time: the slow call to the model goes
on outside the lock, and the clock and the day go on meanwhile.
-/
import Localmail.FilterTokens
import Localmail.IntText
import Localmail.LabelledRun
import Localmail.QueryCompose
import Localmail.SearchCaches

namespace Localmail

namespace SearchCaches

open LruTtl (Call Recent usedSince)

/-! ### `rewrite_cache.py` -/

/-- `_KEY_SEP`. -/
def keySep : CodePoint := .scalar (Char.ofNat 0)

/-- `CachingRewriter._key`. -/
def rewriteKey (today : CalendarDate) (freeText : Text) : Text :=
  today.isoformat ++ keySep :: freeText

structure RewriterSettings where
  maxsize : Int
  ttl : Int

/-- Where a call of `CachingRewriter.rewrite` is. -/
inductive RewritePoint (R : Type) where
  | entered
  | keyed
  | asking
  | storing (result : R)
  | returned (result : R)
  | raised (error : Text)
deriving DecidableEq

/-- A call, with the day its key is of and the time it was looked up. -/
structure RewriteRequest (R : Type) where
  freeText : Text
  today : CalendarDate
  askedAt : Int
  point : RewritePoint R

/-- What the inner rewriter answered, and to which call. -/
structure InnerAnswer (R : Type) where
  id : Nat
  freeText : Text
  today : CalendarDate
  answeredAt : Int
  result : R

/-- The cache and the calls under way; `answers` and `history` keep what the
inner rewriter answered and what was done to the cache. -/
structure RewriterWorld (R : Type) where
  data : Recent Text (Int × R)
  clock : Int
  today : CalendarDate
  requests : List (RewriteRequest R)
  answers : List (InnerAnswer R)
  history : List (Call Text R Int)

inductive RewriteEvent (R : Type) where
  | call (freeText : Text)
  | pass (elapsed : Nat)
  | setDay (today : CalendarDate)
  | step (id : Nat)
  | answer (id : Nat) (outcome : Except Text R)

section Step

variable {R : Type} (settings : RewriterSettings) (world : RewriterWorld R)

def RewriterWorld.goto (id : Nat) (request : RewriteRequest R)
    (point : RewritePoint R) : RewriterWorld R :=
  { world with requests := world.requests.set id { request with point := point } }

/-- `rewrite` up to its next lock or call. -/
def advanceRewrite (id : Nat) (request : RewriteRequest R) :
    Option (RewriterWorld R) :=
  match request.point with
  | .entered =>
      if settings.maxsize ≤ 0 then
        some (world.goto id
          { request with today := world.today, askedAt := world.clock } .asking)
      else some (world.goto id { request with today := world.today } .keyed)
  | .keyed =>
      let key := rewriteKey request.today request.freeText
      let found := LruTtl.get (expired settings.ttl) world.clock key world.data
      some { world.goto id { request with askedAt := world.clock }
          (found.1.elim .asking .returned) with
        data := found.2
        history := world.history ++ [.get world.clock key] }
  | .storing result =>
      let key := rewriteKey request.today request.freeText
      some { world.goto id request (.returned result) with
        data := LruTtl.put settings.maxsize.toNat world.clock key result world.data
        history := world.history ++ [.put world.clock key result] }
  | _ => none

/-- The inner rewriter answers, or raises. -/
def answerRewrite (id : Nat) (request : RewriteRequest R) :
    Except Text R → Option (RewriterWorld R)
  | .error error =>
      match request.point with
      | .asking => some (world.goto id request (.raised error))
      | _ => none
  | .ok result =>
      match request.point with
      | .asking =>
          some { world.goto id request (if settings.maxsize ≤ 0 then
              .returned result else .storing result) with
            answers := world.answers ++
              [⟨id, request.freeText, request.today, world.clock, result⟩] }
      | _ => none

def rewriterStep : RewriteEvent R → Option (RewriterWorld R)
  | .call freeText =>
      some { world with requests := world.requests ++
        [⟨freeText, world.today, world.clock, .entered⟩] }
  | .pass elapsed => some { world with clock := world.clock + elapsed }
  | .setDay today => some { world with today := today }
  | .step id =>
      world.requests[id]?.bind fun request =>
        advanceRewrite settings world id request
  | .answer id outcome =>
      world.requests[id]?.bind fun request =>
        answerRewrite settings world id request outcome

end Step

/-- A rewriter that was just built. -/
def freshRewriter {R : Type} (clock : Int) (today : CalendarDate) :
    RewriterWorld R :=
  ⟨∅, clock, today, [], [], []⟩

/-! ### Keys -/

theorem not_mem_padded {char : CodePoint} (hchar : char.isAsciiDigit = false)
    (width value : Nat) : char ∉ padded width value := by
  intro hmem
  obtain hzero | hdigit := List.mem_append.mp hmem
  · rw [(List.mem_replicate.mp hzero).2] at hchar
    exact absurd hchar (by decide)
  · rw [isAsciiDigit_of_mem_decimal char hdigit] at hchar
    cases hchar

theorem digitsValue_padded (width value : Nat) :
    digitsValue (padded width value) = value := by
  have hzeros (count : Nat) :
      (List.replicate count (CodePoint.scalar '0')).foldl
        (fun total digit => 10 * total + digitValue digit) 0 = 0 := by
    induction count with
    | zero => rfl
    | succ count ih =>
        rw [List.replicate_succ', List.foldl_append, ih]
        decide
  rw [digitsValue, padded, List.foldl_append, hzeros, digitsValue_decimal]

theorem padded_injective {width value other : Nat}
    (hsame : padded width value = padded width other) : value = other := by
  have hvalues := congrArg digitsValue hsame
  rwa [digitsValue_padded, digitsValue_padded] at hvalues

theorem not_mem_isoformat {char : CodePoint}
    (hdigit : char.isAsciiDigit = false) (hdash : char ∉ text "-")
    (date : CalendarDate) : char ∉ date.isoformat := by
  simp only [CalendarDate.isoformat, List.mem_append, not_or]
  exact ⟨⟨⟨⟨not_mem_padded hdigit _ _, hdash⟩, not_mem_padded hdigit _ _⟩,
    hdash⟩, not_mem_padded hdigit _ _⟩

/-- Where two texts are cut at the first of a sign, they agree on both sides. -/
theorem cut_injective {sep : CodePoint} {left right other rest : Text}
    (hleft : sep ∉ left) (hother : sep ∉ other)
    (hsame : left ++ sep :: right = other ++ sep :: rest) :
    left = other ∧ right = rest := by
  have hcut (before after : Text) (hbefore : sep ∉ before) :
      (before ++ sep :: after).takeWhile (fun char => decide (char ≠ sep)) =
        before := by
    refine takeWhile_of_stop (fun char hchar => ?_) (by simp)
    exact decide_eq_true fun hsep => hbefore (hsep ▸ hchar)
  have hbegins : left = other := by
    rw [← hcut left right hleft, hsame, hcut other rest hother]
  subst hbegins
  exact ⟨rfl, (List.cons.inj (List.append_cancel_left hsame)).2⟩

theorem isoformat_injective {date other : CalendarDate}
    (hsame : date.isoformat = other.isoformat) : date = other := by
  have hdash : (CodePoint.scalar '-').isAsciiDigit = false := by decide
  have hsplit (date : CalendarDate) : date.isoformat =
      padded 4 date.year ++ .scalar '-' :: (padded 2 date.month ++
        .scalar '-' :: padded 2 date.day) := by
    simp [CalendarDate.isoformat, text]
  rw [hsplit, hsplit] at hsame
  obtain ⟨hyear, hsame⟩ := cut_injective (not_mem_padded hdash _ _)
    (not_mem_padded hdash _ _) hsame
  obtain ⟨hmonth, hday⟩ := cut_injective (not_mem_padded hdash _ _)
    (not_mem_padded hdash _ _) hsame
  cases date
  cases other
  simp only [CalendarDate.mk.injEq]
  exact ⟨padded_injective hyear, padded_injective hmonth, padded_injective hday⟩

/-- A key is of one day and one text, whatever the text. -/
theorem rewriteKey_injective {today other : CalendarDate}
    {freeText otherText : Text}
    (hsame : rewriteKey today freeText = rewriteKey other otherText) :
    today = other ∧ freeText = otherText := by
  have hnul : keySep.isAsciiDigit = false := by decide
  obtain ⟨hdate, htext⟩ := cut_injective
    (not_mem_isoformat hnul (by decide) _)
    (not_mem_isoformat hnul (by decide) _) hsame
  exact ⟨isoformat_injective hdate, htext⟩

/-! ### What every run keeps -/

section Invariant

variable {R : Type} (settings : RewriterSettings)

/-- The inner rewriter answered the call itself, since it was looked up. -/
def OwnAnswer (answers : List (InnerAnswer R)) (id : Nat)
    (request : RewriteRequest R) (result : R) : Prop :=
  ∃ answer ∈ answers, answer.id = id ∧ answer.freeText = request.freeText ∧
    answer.today = request.today ∧ answer.result = result ∧
    request.askedAt ≤ answer.answeredAt

/-- It answered a call with the same text on the same day, and what it answered
was kept not longer than allowed before the call was looked up. -/
def KeptAnswer (answers : List (InnerAnswer R)) (request : RewriteRequest R)
    (result : R) : Prop :=
  0 < settings.maxsize ∧ ∃ answer ∈ answers,
    answer.freeText = request.freeText ∧ answer.today = request.today ∧
    answer.result = result ∧ ∃ stamp, answer.answeredAt ≤ stamp ∧
      stamp ≤ request.askedAt ∧ request.askedAt - stamp ≤ settings.ttl

def RequestInv (answers : List (InnerAnswer R)) (clock : Int) (id : Nat)
    (request : RewriteRequest R) : Prop :=
  match request.point with
  | .entered | .raised _ => True
  | .keyed => 0 < settings.maxsize
  | .asking => request.askedAt ≤ clock
  | .storing result =>
      0 < settings.maxsize ∧ OwnAnswer answers id request result
  | .returned result =>
      OwnAnswer answers id request result ∨
        KeptAnswer settings answers request result

/-- What was done to the cache was done before now, and only what the inner
rewriter answered was put. -/
def CallInv (answers : List (InnerAnswer R)) (clock : Int) :
    Call Text R Int → Prop
  | .put stamp key result =>
      stamp ≤ clock ∧ ∃ answer ∈ answers,
        key = rewriteKey answer.today answer.freeText ∧
        answer.result = result ∧ answer.answeredAt ≤ stamp
  | .get asked _ => asked ≤ clock
  | .invalidate _ => False

structure RewriteInv (world : RewriterWorld R) : Prop where
  cached : world.data =
    LruTtl.after settings.maxsize.toNat (expired settings.ttl) world.history
  off : settings.maxsize ≤ 0 → world.history = []
  calls : ∀ call ∈ world.history, CallInv world.answers world.clock call
  answered : ∀ answer ∈ world.answers, answer.answeredAt ≤ world.clock
  requests : ∀ (id : Nat) (request : RewriteRequest R),
    world.requests[id]? = some request →
      RequestInv settings world.answers world.clock id request

variable {settings} {world : RewriterWorld R}

theorem OwnAnswer.mono {answers more : List (InnerAnswer R)} {id : Nat}
    {request : RewriteRequest R} {result : R}
    (h : OwnAnswer answers id request result) (hmore : answers ⊆ more) :
    OwnAnswer more id request result := by
  obtain ⟨answer, hmem, hgave⟩ := h
  exact ⟨answer, hmore hmem, hgave⟩

theorem RequestInv.mono {answers more : List (InnerAnswer R)}
    {clock later : Int} {id : Nat} {request : RewriteRequest R}
    (h : RequestInv settings answers clock id request)
    (hmore : answers ⊆ more) (hlater : clock ≤ later) :
    RequestInv settings more later id request := by
  unfold RequestInv at h ⊢
  cases hpoint : request.point with
  | entered => trivial
  | keyed => rw [hpoint] at h; exact h
  | asking => rw [hpoint] at h; exact Int.le_trans h hlater
  | storing result => rw [hpoint] at h; exact ⟨h.1, h.2.mono hmore⟩
  | returned result =>
      rw [hpoint] at h
      obtain hown | ⟨hon, answer, hmem, hgave⟩ := h
      · exact .inl (hown.mono hmore)
      · exact .inr ⟨hon, answer, hmore hmem, hgave⟩
  | raised error => trivial

theorem CallInv.mono {answers more : List (InnerAnswer R)} {clock later : Int}
    {call : Call Text R Int} (h : CallInv answers clock call)
    (hmore : answers ⊆ more) (hlater : clock ≤ later) :
    CallInv more later call := by
  cases call with
  | put stamp key result =>
      obtain ⟨hstamp, answer, hmem, hgave⟩ := h
      exact ⟨hstamp.trans hlater, answer, hmore hmem, hgave⟩
  | get asked key => exact Int.le_trans h hlater
  | invalidate key => exact h

/-- A call goes on to a point at which what it holds is accounted for. -/
theorem RewriteInv.goto (h : RewriteInv settings world) {id : Nat}
    {request : RewriteRequest R} {point : RewritePoint R}
    (hpoint : RequestInv settings world.answers world.clock id
      { request with point := point }) :
    RewriteInv settings (world.goto id request point) := by
  refine ⟨h.cached, h.off, h.calls, h.answered, fun other found hfound => ?_⟩
  by_cases hsame : id = other
  · subst hsame
    obtain ⟨before, -, hset⟩ := Option.map_eq_some_iff.mp
      (List.getElem?_set_self'.symm.trans hfound)
    exact hset ▸ hpoint
  · exact h.requests other found
      ((List.getElem?_set_ne hsame).symm.trans hfound)

/-- One call to the cache, under its lock. -/
theorem RewriteInv.perform (h : RewriteInv settings world)
    (hon : 0 < settings.maxsize) {call : Call Text R Int}
    (hcall : CallInv world.answers world.clock call) :
    RewriteInv settings { world with
      data := call.perform settings.maxsize.toNat (expired settings.ttl)
        world.data
      history := world.history ++ [call] } := by
  refine ⟨?_, fun hoff => absurd hoff (Int.not_le.mpr hon), fun other hother => ?_,
    h.answered, h.requests⟩
  · exact (congrArg (fun data => call.perform _ _ data) h.cached).trans
      (LruTtl.after_concat world.history call).symm
  · obtain hold | hlast := List.mem_append.mp hother
    · exact h.calls other hold
    · exact List.mem_singleton.mp hlast ▸ hcall

theorem RewriteInv.answer (h : RewriteInv settings world)
    {answer : InnerAnswer R} (hnow : answer.answeredAt ≤ world.clock) :
    RewriteInv settings
      { world with answers := world.answers ++ [answer] } := by
  have hmore : world.answers ⊆ world.answers ++ [answer] :=
    List.subset_append_left _ _
  refine ⟨h.cached, h.off, fun call hcall => (h.calls call hcall).mono hmore
    (Int.le_refl _), fun other hother => ?_, fun id request hrequest =>
      (h.requests id request hrequest).mono hmore (Int.le_refl _)⟩
  obtain hold | hlast := List.mem_append.mp hother
  · exact h.answered other hold
  · exact List.mem_singleton.mp hlast ▸ hnow

theorem RewriteInv.pass (h : RewriteInv settings world) (elapsed : Nat) :
    RewriteInv settings { world with clock := world.clock + elapsed } := by
  have hlater : world.clock ≤ world.clock + elapsed := by omega
  exact ⟨h.cached, h.off,
    fun call hcall => (h.calls call hcall).mono (List.Subset.refl _) hlater,
    fun answer hanswer => (h.answered answer hanswer).trans hlater,
    fun id request hrequest =>
      (h.requests id request hrequest).mono (List.Subset.refl _) hlater⟩

/-- A hit is what the inner rewriter answered for the same text on the same
day, put not longer ago than allowed. -/
theorem RewriteInv.hit (h : RewriteInv settings world)
    (hon : 0 < settings.maxsize) {request : RewriteRequest R} {result : R}
    (hhit : (LruTtl.get (expired settings.ttl) world.clock
      (rewriteKey request.today request.freeText) world.data).1 = some result) :
    KeptAnswer settings world.answers
      { request with askedAt := world.clock } result := by
  obtain ⟨stamp, hlookup, hyoung⟩ := LruTtl.get_eq_some_iff.mp hhit
  rw [h.cached] at hlookup
  obtain ⟨before, later, hhistory, -⟩ := LruTtl.put_of_lookup hlookup
  have hput := h.calls _ (hhistory ▸ List.mem_append_right before
    List.mem_cons_self)
  obtain ⟨hstamp, answer, hmem, hkey, hresult, hanswered⟩ := hput
  obtain ⟨htoday, htext⟩ := rewriteKey_injective hkey
  refine ⟨hon, answer, hmem, htext.symm, htoday.symm, hresult, stamp, hanswered,
    hstamp, ?_⟩
  simpa [expired] using hyoung

theorem RewriteInv.advance (h : RewriteInv settings world) {id : Nat}
    {request : RewriteRequest R} {next : RewriterWorld R}
    (hrequest : world.requests[id]? = some request)
    (hnext : advanceRewrite settings world id request = some next) :
    RewriteInv settings next := by
  have hinv := h.requests id request hrequest
  unfold RequestInv at hinv
  unfold advanceRewrite at hnext
  cases hpoint : request.point with
  | entered =>
      simp only [hpoint] at hnext
      split at hnext
      · cases hnext
        exact h.goto (Int.le_refl world.clock)
      · rename_i hon
        cases hnext
        exact h.goto (Int.not_le.mp hon)
  | keyed =>
      simp only [hpoint] at hnext hinv
      cases hnext
      have hget : CallInv world.answers world.clock (.get world.clock
          (rewriteKey request.today request.freeText)) := Int.le_refl _
      refine (h.perform hinv hget).goto ?_
      cases hfound : (LruTtl.get (expired settings.ttl) world.clock
          (rewriteKey request.today request.freeText) world.data).1 with
      | none => exact Int.le_refl world.clock
      | some result => exact .inr (h.hit hinv hfound)
  | storing result =>
      simp only [hpoint] at hnext hinv
      cases hnext
      obtain ⟨answer, hmem, -, htext, htoday, hresult, -⟩ := hinv.2
      have hput : CallInv world.answers world.clock (.put world.clock
          (rewriteKey request.today request.freeText) result) :=
        ⟨Int.le_refl _, answer, hmem, by rw [htext, htoday], hresult,
          h.answered answer hmem⟩
      exact (h.perform hinv.1 hput).goto (.inl hinv.2)
  | _ => simp [hpoint] at hnext

theorem RewriteInv.settle (h : RewriteInv settings world) {id : Nat}
    {request : RewriteRequest R} {outcome : Except Text R}
    {next : RewriterWorld R} (hrequest : world.requests[id]? = some request)
    (hnext : answerRewrite settings world id request outcome = some next) :
    RewriteInv settings next := by
  have hinv := h.requests id request hrequest
  unfold RequestInv at hinv
  cases hpoint : request.point with
  | asking =>
      simp only [hpoint] at hinv
      cases outcome with
      | error error =>
          simp only [answerRewrite, hpoint, Option.some.injEq] at hnext
          exact hnext ▸ h.goto trivial
      | ok result =>
          simp only [answerRewrite, hpoint, Option.some.injEq] at hnext
          have hanswered : RewriteInv settings { world with
              answers := world.answers ++ [⟨id, request.freeText, request.today,
                world.clock, result⟩] } := h.answer (Int.le_refl world.clock)
          have hown : OwnAnswer (world.answers ++ [⟨id, request.freeText,
              request.today, world.clock, result⟩]) id request result :=
            ⟨_, List.mem_append_right _ (List.mem_singleton.mpr rfl), rfl, rfl,
              rfl, rfl, hinv⟩
          subst hnext
          refine hanswered.goto ?_
          by_cases hoff : settings.maxsize ≤ 0
          · rw [if_pos hoff]
            exact .inl hown
          · rw [if_neg hoff]
            exact ⟨Int.not_le.mp hoff, hown⟩
  | _ => cases outcome <;> simp [answerRewrite, hpoint] at hnext

theorem RewriteInv.step (h : RewriteInv settings world)
    {event : RewriteEvent R} {next : RewriterWorld R}
    (hnext : rewriterStep settings world event = some next) :
    RewriteInv settings next := by
  cases event with
  | call freeText =>
      cases hnext
      refine ⟨h.cached, h.off, h.calls, h.answered,
        fun id request hrequest => ?_⟩
      by_cases hold : id < world.requests.length
      · exact h.requests id request
          ((List.getElem?_append_left hold).symm.trans hrequest)
      · have hnew := (List.getElem?_append_right (Nat.le_of_not_lt hold)).symm.trans
          hrequest
        rw [List.mem_singleton.mp (List.mem_of_getElem? hnew)]
        trivial
  | pass elapsed => cases hnext; exact h.pass elapsed
  | setDay today =>
      cases hnext
      exact ⟨h.cached, h.off, h.calls, h.answered, h.requests⟩
  | step id =>
      obtain ⟨request, hrequest, hadvance⟩ := Option.bind_eq_some_iff.mp hnext
      exact h.advance hrequest hadvance
  | answer id outcome =>
      obtain ⟨request, hrequest, hsettle⟩ := Option.bind_eq_some_iff.mp hnext
      exact h.settle hrequest hsettle

theorem RewriteInv.reached {clock : Int} {today : CalendarDate}
    (hrun : Reach (rewriterStep settings) (freshRewriter clock today) world) :
    RewriteInv settings world := by
  refine hrun.invariant ?_ fun before event after h _ henabled => h.step henabled
  exact ⟨rfl, fun _ => rfl, by simp [freshRewriter], by simp [freshRewriter],
    by simp [freshRewriter]⟩

/-- A young entry that few others were used after is found. -/
theorem RewriteInv.finds (h : RewriteInv settings world) {id : Nat}
    {request : RewriteRequest R} (hrequest : world.requests[id]? = some request)
    (hkeyed : request.point = .keyed) {before later : List (Call Text R Int)}
    {stamp : Int} {result : R}
    (hhistory : world.history = before ++ .put stamp
      (rewriteKey request.today request.freeText) result :: later)
    (hsets : ∀ call ∈ later,
      call.sets ≠ some (rewriteKey request.today request.freeText))
    (hyoung : world.clock - stamp ≤ settings.ttl)
    (hfew : ∀ sofar, sofar <+: later →
      (usedSince (rewriteKey request.today request.freeText) sofar).card <
        settings.maxsize.toNat) :
    ∃ next, rewriterStep settings world (.step id) = some next ∧
      next.requests[id]? = some { request with
        askedAt := world.clock
        point := .returned result } := by
  have hlookup : world.data.lookup (rewriteKey request.today request.freeText) =
      some (stamp, result) := by
    rw [h.cached, hhistory]
    refine LruTtl.kept_of_few hsets (fun call hcall asked hget => ?_) hfew
    have hpast := h.calls call (hhistory ▸ List.mem_append_right before
      (List.mem_cons_of_mem _ hcall))
    rw [hget] at hpast
    have hasked : asked ≤ world.clock := hpast
    simp only [expired, decide_eq_false_iff_not]
    omega
  have hfound : (LruTtl.get (expired settings.ttl) world.clock
      (rewriteKey request.today request.freeText) world.data).1 = some result :=
    LruTtl.get_eq_some_iff.mpr ⟨stamp, hlookup, by simpa [expired] using hyoung⟩
  obtain ⟨hid, -⟩ := List.getElem?_eq_some_iff.mp hrequest
  have hnext : rewriterStep settings world (.step id) =
      advanceRewrite settings world id request := by
    rw [rewriterStep, hrequest, Option.bind_some]
  unfold advanceRewrite at hnext
  simp only [hkeyed, hfound, Option.elim_some] at hnext
  exact ⟨_, hnext, List.getElem?_set_self hid⟩

/-- In every run, however the calls, the clock and the day interleave: there
are never more rewrites than allowed, and none when the cache is off; a call
returns what the inner rewriter answered for its own text, either to the call
itself or, to another one of the same day, kept no longer than allowed; and a
call whose rewrite was put no longer ago is answered without asking, as long as
at any moment since then fewer others than there is room for were used. -/
theorem rewrites_are_of_the_text_and_day (clock : Int) (today : CalendarDate)
    (hrun : Reach (rewriterStep settings) (freshRewriter clock today) world) :
    world.data.keys.length ≤ settings.maxsize.toNat ∧
    (∀ (id : Nat) (request : RewriteRequest R) (result : R),
      world.requests[id]? = some request → request.point = .returned result →
      OwnAnswer world.answers id request result ∨
        KeptAnswer settings world.answers request result) ∧
    ∀ (id : Nat) (request : RewriteRequest R) before stamp result later,
      world.requests[id]? = some request → request.point = .keyed →
      world.history = before ++ .put stamp
        (rewriteKey request.today request.freeText) result :: later →
      (∀ call ∈ later,
        call.sets ≠ some (rewriteKey request.today request.freeText)) →
      world.clock - stamp ≤ settings.ttl →
      (∀ sofar, sofar <+: later →
        (usedSince (rewriteKey request.today request.freeText) sofar).card <
          settings.maxsize.toNat) →
      ∃ next, rewriterStep settings world (.step id) = some next ∧
        next.requests[id]? = some { request with
          askedAt := world.clock
          point := .returned result } := by
  have h := RewriteInv.reached hrun
  refine ⟨?_, fun id request result hrequest hpoint => ?_, ?_⟩
  · rw [h.cached]
    exact LruTtl.length_after_le world.history
  · have hinv := h.requests id request hrequest
    unfold RequestInv at hinv
    simpa only [hpoint] using hinv
  · intro id request before stamp result later hrequest hkeyed hhistory hsets
      hyoung hfew
    exact h.finds hrequest hkeyed hhistory hsets hyoung hfew

end Invariant

def firstOfMarch : CalendarDate :=
  ⟨2026, 3, 1, by decide, by decide, by decide⟩

def secondOfMarch : CalendarDate :=
  ⟨2026, 3, 2, by decide, by decide, by decide⟩

/-- Two calls with one text, and another one on the next day. -/
def acrossMidnight : List (RewriteEvent Nat) :=
  [.call (text "bills"), .step 0, .step 0, .pass 4, .answer 0 (.ok 7), .step 0,
    .call (text "bills"), .step 1, .pass 5, .step 1, .setDay secondOfMarch,
    .call (text "bills"), .step 2, .step 2, .answer 2 (.ok 8), .step 2]

theorem rewrites_are_of_the_text_and_day_midnight :
    ∃ world : RewriterWorld Nat,
      Reach (rewriterStep ⟨2, 60⟩) (freshRewriter 100 firstOfMarch) world ∧
      world.requests.map RewriteRequest.point =
        [.returned 7, .returned 7, .returned 8] ∧
      world.answers.map InnerAnswer.id = [0, 2] ∧
      ∀ (id : Nat) (request : RewriteRequest Nat) (result : Nat),
        world.requests[id]? = some request → request.point = .returned result →
        OwnAnswer world.answers id request result ∨
          KeptAnswer ⟨2, 60⟩ world.answers request result := by
  have hreplay : (replayGuarded (rewriterStep ⟨2, 60⟩) (fun _ _ => True)
      (freshRewriter 100 firstOfMarch) acrossMidnight).map (fun world =>
        (world.requests.map RewriteRequest.point,
          world.answers.map InnerAnswer.id)) =
      some ([.returned 7, .returned 7, .returned 8], [0, 2]) := by
    decide +kernel
  obtain ⟨world, hworld, hends⟩ := Option.map_eq_some_iff.mp hreplay
  have hrun := GuardedReach.of_replay _ hworld
  obtain ⟨hpoints, hanswers⟩ := Prod.mk.inj hends
  exact ⟨world, hrun, hpoints, hanswers,
    (rewrites_are_of_the_text_and_day 100 firstOfMarch hrun).2.1⟩

end SearchCaches

end Localmail

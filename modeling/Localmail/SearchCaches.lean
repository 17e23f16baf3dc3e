/-
The pools that a search cursor pages over, kept by their token for a while: what
the page cache answers, by the history of its calls.
-/
import Localmail.LruTtl
import Localmail.QueryParse

namespace Localmail

namespace SearchCaches

open LruTtl (Call Recent usedSince)

/-- `clock() - stamp > ttl`. -/
def expired (ttl now stamp : Int) : Bool :=
  ttl < now - stamp

/-! ### `page_cache.py` -/

structure PageCache (V : Type) where
  maxsize : Nat
  ttl : Int
  data : Recent Text (Int × V)

/-- The token is not there, or has expired. -/
structure CacheMissError where
  key : Text
deriving Repr, DecidableEq

namespace PageCache

variable {V : Type}

def new (maxsize : Nat) (ttl : Int) : PageCache V :=
  ⟨maxsize, ttl, ∅⟩

def put (cache : PageCache V) (now : Int) (key : Text) (value : V) :
    PageCache V :=
  { cache with data := LruTtl.put cache.maxsize now key value cache.data }

def get (cache : PageCache V) (now : Int) (key : Text) :
    Except CacheMissError V × PageCache V :=
  let found := LruTtl.get (expired cache.ttl) now key cache.data
  (found.1.elim (.error ⟨key⟩) .ok, { cache with data := found.2 })

def invalidate (cache : PageCache V) (key : Text) : PageCache V :=
  { cache with data := LruTtl.invalidate key cache.data }

def serve (cache : PageCache V) : Call Text V Int → PageCache V
  | .put now key value => cache.put now key value
  | .get now key => (cache.get now key).2
  | .invalidate key => cache.invalidate key

end PageCache

section Pages

variable {V : Type} {maxsize : Nat} {ttl : Int}

/-- The page cache is the general one, at its own keys and clock. -/
theorem serve_foldl (calls : List (Call Text V Int)) :
    calls.foldl PageCache.serve (PageCache.new maxsize ttl) =
      ⟨maxsize, ttl, LruTtl.after maxsize (expired ttl) calls⟩ := by
  induction calls using List.reverseRecOn with
  | nil => rfl
  | append_singleton calls call ih =>
      rw [List.foldl_append, List.foldl_cons, List.foldl_nil, ih,
        LruTtl.after_concat]
      cases call with
      | put now key value => rfl
      | get now key => rfl
      | invalidate key => rfl

theorem get_eq_ok_iff {cache : PageCache V} {now : Int} {key : Text}
    {value : V} :
    (cache.get now key).1 = .ok value ↔
      ∃ stamp, cache.data.lookup key = some (stamp, value) ∧
        now - stamp ≤ cache.ttl := by
  have hexpired (stamp : Int) :
      expired cache.ttl now stamp = false ↔ now - stamp ≤ cache.ttl := by
    simp [expired]
  simp only [← hexpired, ← LruTtl.get_eq_some_iff, PageCache.get]
  cases (LruTtl.get (expired cache.ttl) now key cache.data).1 with
  | none => simp
  | some found => simp

/-- Whatever was put, asked for and dropped before: the cache never holds more
pools than allowed; a hit is the pool that was put last for the token, put no
longer ago than it may be kept and not dropped since; and a pool that is young
enough is found as long as, at any moment since it was put, fewer other tokens
than there is room for were used after it. -/
theorem page_cache_answers (calls : List (Call Text V Int)) (now : Int)
    (key : Text) :
    let cache := calls.foldl PageCache.serve (PageCache.new maxsize ttl)
    cache.data.keys.length ≤ maxsize ∧
    (∀ value, (cache.get now key).1 = .ok value →
      ∃ before stamp later, calls = before ++ .put stamp key value :: later ∧
        (∀ call ∈ later, call.sets ≠ some key) ∧ now - stamp ≤ ttl) ∧
    ∀ before stamp value later,
      calls = before ++ .put stamp key value :: later →
      (∀ call ∈ later, call.sets ≠ some key) →
      (∀ call ∈ later, ∀ asked, call = .get asked key → asked ≤ now) →
      now - stamp ≤ ttl →
      (∀ sofar, sofar <+: later → (usedSince key sofar).card < maxsize) →
      (cache.get now key).1 = .ok value := by
  dsimp only
  rw [serve_foldl]
  refine ⟨LruTtl.length_after_le calls, fun value hhit => ?_, ?_⟩
  · obtain ⟨stamp, hlookup, hyoung⟩ := get_eq_ok_iff.mp hhit
    obtain ⟨before, later, hcalls, hsets⟩ := LruTtl.put_of_lookup hlookup
    exact ⟨before, stamp, later, hcalls, hsets, hyoung⟩
  · rintro before stamp value later rfl hsets hasked hyoung hfew
    refine get_eq_ok_iff.mpr ⟨stamp, ?_, hyoung⟩
    refine LruTtl.kept_of_few hsets (fun call hcall asked hget => ?_) hfew
    have := hasked call hcall asked hget
    simp only [expired, decide_eq_false_iff_not]
    omega

end Pages

end SearchCaches

end Localmail

/-
A list shown to a client as consecutive pages of one walk.  Every page answers
a request of its own, the first one without a cursor and each later one with
the cursor the page before it returned.
-/
import Mathlib.Data.List.Chain
import Mathlib.Data.List.Nodup

namespace Localmail

universe u v w

variable {κ : Type u} {γ : Type v} {α : Type w}

/-- The answer to request number `number`, which asked for `key` from
`cursor` on. -/
structure AnsweredPage (κ : Type u) (γ : Type v) (α : Type w) where
  number : Nat
  key : κ
  cursor : Option γ
  rows : List α
  next : Option γ
deriving Repr, DecidableEq

/-- `later` asked for what comes after `page`. -/
def Continues (page later : AnsweredPage κ γ α) : Prop :=
  later.key = page.key ∧ page.next.isSome ∧ later.cursor = page.next

/-- The pages of one walk for `key`, from the answer to request `first` on. -/
structure CursorChain (key : κ) (first : Nat)
    (pages : List (AnsweredPage κ γ α)) : Prop where
  head : ∃ page, pages.head? = some page ∧ page.number = first ∧
    page.key = key ∧ page.cursor = none
  linked : pages.IsChain Continues
  once : (pages.map AnsweredPage.number).Nodup

/-- The rows a chain of pages shows. -/
def shownRows (pages : List (AnsweredPage κ γ α)) : List α :=
  pages.flatMap AnsweredPage.rows

@[simp] theorem shownRows_append (pages others : List (AnsweredPage κ γ α)) :
    shownRows (pages ++ others) = shownRows pages ++ shownRows others :=
  List.flatMap_append

@[simp] theorem shownRows_singleton (page : AnsweredPage κ γ α) :
    shownRows [page] = page.rows := by
  simp [shownRows]

namespace CursorChain

variable {key : κ} {first : Nat} {pages : List (AnsweredPage κ γ α)}
  {page : AnsweredPage κ γ α}

theorem singleton (page : AnsweredPage κ γ α) (hkey : page.key = key)
    (hcursor : page.cursor = none) :
    CursorChain key page.number [page] :=
  ⟨⟨page, rfl, rfl, hkey, hcursor⟩, .singleton page, List.nodup_singleton _⟩

theorem ne_nil (hchain : CursorChain key first pages) : pages ≠ [] := by
  obtain ⟨page, hhead, -⟩ := hchain.head
  rintro rfl
  cases hhead

theorem exists_last (hchain : CursorChain key first pages) :
    ∃ last, pages.getLast? = some last :=
  ⟨_, List.getLast?_eq_some_getLast hchain.ne_nil⟩

/-- Every page asked for the same thing. -/
theorem key_eq (hchain : CursorChain key first pages) :
    ∀ page ∈ pages, page.key = key := by
  obtain ⟨start, hhead, -, hkey, -⟩ := hchain.head
  cases pages with
  | nil => cases hhead
  | cons head rest =>
      obtain rfl := Option.some.inj hhead
      have hrel : ∀ page ∈ rest, page.key = head.key := by
        clear hhead hkey
        have hlinked := hchain.linked
        clear hchain
        induction rest generalizing head with
        | nil => simp
        | cons next rest ih =>
            obtain ⟨hnext, hrest⟩ := List.isChain_cons_cons.mp hlinked
            intro page hpage
            rcases List.mem_cons.mp hpage with rfl | hlater
            · exact hnext.1
            · exact (ih next hrest page hlater).trans hnext.1
      intro page hpage
      rcases List.mem_cons.mp hpage with rfl | hlater
      · exact hkey
      · exact (hrel page hlater).trans hkey

/-- A page that asked for the rest extends the chain. -/
theorem snoc {last : AnsweredPage κ γ α}
    (hchain : CursorChain key first pages) (hlast : pages.getLast? = some last)
    (hcontinues : Continues last page)
    (hfresh : page.number ∉ pages.map AnsweredPage.number) :
    CursorChain key first (pages ++ [page]) where
  head := by
    obtain ⟨start, hhead, hstart⟩ := hchain.head
    refine ⟨start, ?_, hstart⟩
    rw [List.head?_append, hhead]
    rfl
  linked := by
    refine hchain.linked.append (.singleton page) ?_
    intro before hbefore after hafter
    obtain rfl := Option.some.inj (hlast.symm.trans hbefore)
    obtain rfl : page = after := by simpa using hafter
    exact hcontinues
  once := by
    rw [List.map_append, List.nodup_append]
    refine ⟨hchain.once, List.nodup_singleton _, ?_⟩
    intro number hnumber other hother
    rintro rfl
    rw [List.map_singleton, List.mem_singleton] at hother
    exact hfresh (hother ▸ hnumber)

end CursorChain

end Localmail

/-
A tree of files as POSIX has it: a path is linked to a node, and the contents
are the node's.  Renaming and unlinking change the links alone, so whoever has
a node open keeps what it holds, and a node that no path leads to is still
there for whoever writes to it.
-/
import Mathlib.Data.List.Basic

namespace Localmail

universe u v

structure FileTree (P : Type u) (N : Type v) where
  links : List (P × Nat)
  nodes : List N
deriving Repr, DecidableEq

namespace FileTree

variable {P : Type u} {N : Type v} [DecidableEq P] (tree : FileTree P N)

def lookup (path : P) : Option Nat :=
  (tree.links.find? fun link => link.1 = path).map Prod.snd

def read (path : P) : Option N :=
  (tree.lookup path).bind fun node => tree.nodes[node]?

def unlink (path : P) : FileTree P N :=
  { tree with links := tree.links.filter fun link => link.1 ≠ path }

def link (path : P) (node : Nat) : FileTree P N :=
  { tree with links := (path, node) :: (tree.unlink path).links }

/-- Open a path for writing: what is there is truncated, in place. -/
def create (path : P) (empty : N) : FileTree P N × Nat :=
  match tree.lookup path with
  | some node => ({ tree with nodes := tree.nodes.set node empty }, node)
  | none =>
      (({ tree with nodes := tree.nodes ++ [empty] } : FileTree P N).link path
        tree.nodes.length, tree.nodes.length)

/-- Write through an open node. -/
def modify (node : Nat) (change : N → N) : FileTree P N :=
  { tree with nodes := tree.nodes.modify node change }

/-- `os.replace`, which needs a source. -/
def rename (source target : P) : Option (FileTree P N) :=
  (tree.lookup source).map fun node => (tree.unlink source).link target node

/-- Every path leads to a node. -/
def Held : Prop :=
  ∀ path node, tree.lookup path = some node → node < tree.nodes.length

variable {tree}

/-! ### Links -/

@[simp]
theorem nodes_unlink (path : P) : (tree.unlink path).nodes = tree.nodes := rfl

@[simp]
theorem nodes_link (path : P) (node : Nat) :
    (tree.link path node).nodes = tree.nodes := rfl

@[simp]
theorem lookup_modify (node : Nat) (change : N → N) (path : P) :
    (tree.modify node change).lookup path = tree.lookup path := rfl

theorem find?_unlink (path other : P) :
    (tree.unlink path).links.find? (fun link => link.1 = other) =
      if other = path then none
      else tree.links.find? fun link => link.1 = other := by
  rw [unlink, List.find?_filter]
  split
  · rename_i hsame
    subst hsame
    rw [List.find?_eq_none]
    intro link _
    simp
  · rename_i hne
    congr 1
    funext link
    by_cases hlink : link.1 = other <;> simp [hlink, hne]

theorem lookup_unlink (path other : P) :
    (tree.unlink path).lookup other =
      if other = path then none else tree.lookup other := by
  rw [lookup, find?_unlink]
  split <;> rfl

theorem lookup_link (path other : P) (node : Nat) :
    (tree.link path node).lookup other =
      if other = path then some node else tree.lookup other := by
  rw [lookup, link, List.find?_cons]
  by_cases hsame : path = other
  · simp [hsame]
  · rw [if_neg (Ne.symm hsame)]
    simp only [hsame, decide_false, find?_unlink, if_neg (Ne.symm hsame)]
    rfl

/-! ### What each operation does -/

/-- What opening a path leaves at every path. -/
theorem lookup_create (path other : P) (empty : N) :
    (tree.create path empty).1.lookup other =
      if other = path then some (tree.create path empty).2
      else tree.lookup other := by
  unfold create
  split
  · rename_i node hnode
    split
    · rename_i hsame
      exact hsame ▸ hnode
    · rfl
  · exact lookup_link path other _

theorem create_of_missing {path : P} (empty : N)
    (hmissing : tree.lookup path = none) :
    tree.create path empty =
      (({ tree with nodes := tree.nodes ++ [empty] } : FileTree P N).link path
        tree.nodes.length, tree.nodes.length) := by
  unfold create
  rw [hmissing]

theorem rename_eq_some_iff {source target : P} {next : FileTree P N} :
    tree.rename source target = some next ↔
      ∃ node, tree.lookup source = some node ∧
        next = (tree.unlink source).link target node := by
  rw [rename, Option.map_eq_some_iff]
  exact exists_congr fun node => and_congr_right fun _ => eq_comm

theorem lookup_rename {source target : P} {next : FileTree P N}
    (hrename : tree.rename source target = some next) (other : P) :
    next.lookup other =
      if other = target then tree.lookup source
      else if other = source then none else tree.lookup other := by
  obtain ⟨node, hnode, rfl⟩ := rename_eq_some_iff.mp hrename
  rw [lookup_link, lookup_unlink, hnode]

theorem nodes_rename {source target : P} {next : FileTree P N}
    (hrename : tree.rename source target = some next) :
    next.nodes = tree.nodes := by
  obtain ⟨node, -, rfl⟩ := rename_eq_some_iff.mp hrename
  rfl

omit [DecidableEq P] in
theorem length_modify (node : Nat) (change : N → N) :
    (tree.modify node change).nodes.length = tree.nodes.length :=
  List.length_modify ..

omit [DecidableEq P] in
theorem getElem?_modify (node other : Nat) (change : N → N) :
    (tree.modify node change).nodes[other]? =
      if other = node then tree.nodes[other]?.map change
      else tree.nodes[other]? := by
  rw [modify, List.getElem?_modify]
  by_cases hsame : node = other
  · simp [hsame]
  · simp [hsame, Ne.symm hsame]

/-! ### What they keep -/

theorem Held.unlink (hheld : tree.Held) (path : P) :
    (tree.unlink path).Held := by
  intro other node hnode
  rw [lookup_unlink] at hnode
  split at hnode
  · cases hnode
  · exact hheld other node hnode

theorem Held.link (hheld : tree.Held) (path : P) {node : Nat}
    (hnode : node < tree.nodes.length) : (tree.link path node).Held := by
  intro other found hfound
  rw [lookup_link] at hfound
  split at hfound
  · exact Option.some.inj hfound ▸ hnode
  · exact hheld other found hfound

theorem Held.rename {next : FileTree P N} {source target : P}
    (hheld : tree.Held) (hrename : tree.rename source target = some next) :
    next.Held := by
  obtain ⟨node, hnode, rfl⟩ := rename_eq_some_iff.mp hrename
  exact (hheld.unlink source).link target (hheld source node hnode)

theorem Held.modify (hheld : tree.Held) (node : Nat) (change : N → N) :
    (tree.modify node change).Held := by
  intro other found hfound
  rw [length_modify]
  exact hheld other found hfound

theorem Held.create (hheld : tree.Held) (path : P) (empty : N) :
    (tree.create path empty).1.Held := by
  unfold FileTree.create
  split
  · intro other found hfound
    rw [List.length_set]
    exact hheld other found hfound
  · refine Held.link ?_ path (by simp)
    intro other found hfound
    rw [List.length_append]
    exact Nat.lt_add_right 1 (hheld other found hfound)

end FileTree

end Localmail

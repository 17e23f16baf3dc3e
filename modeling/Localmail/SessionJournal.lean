/-
What one database session has written: durable from the commit on, pending
until then.  A savepoint remembers the pending writes; a rollback drops them.
-/
import Mathlib.Data.List.Basic

namespace Localmail

universe u

variable {W : Type u}

structure Session (W : Type u) where
  durable : List W
  pending : List W
deriving Repr, DecidableEq

namespace Session

def empty : Session W := ⟨[], []⟩

/-- Everything written, durable once the session commits. -/
def view (session : Session W) : List W :=
  session.durable ++ session.pending

def write (session : Session W) (writes : List W) : Session W :=
  { session with pending := session.pending ++ writes }

def commit (session : Session W) : Session W :=
  ⟨session.view, []⟩

def rollback (session : Session W) : Session W :=
  { session with pending := [] }

/-- `saved` is what was pending at the savepoint. -/
def rollbackTo (session : Session W) (saved : List W) : Session W :=
  { session with pending := saved }

@[simp] theorem view_commit (session : Session W) :
    session.commit.view = session.view :=
  List.append_nil _

end Session

end Localmail

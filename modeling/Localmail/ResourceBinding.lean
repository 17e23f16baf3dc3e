/-
Resource indicators: the canonical form of a resource, the set a server accepts,
the resource that a token is bound to and the check of a bound token.
-/
import Localmail.UrlSplit

namespace Localmail

/-- `_DEFAULT_PORTS`. -/
def defaultPorts : List (Text × Nat) := [(text "http", 80), (text "https", 443)]

/-- A path without a slash at its end. -/
def dropSlash (path : Text) : Text :=
  if path.getLast? = some (.scalar '/') then path.dropLast else path

def writtenNetloc (host : Text) (port : Option Nat) (defaultPort : Nat) : Text :=
  match port with
  | none => host
  | some number =>
      if number ≠ defaultPort then host ++ text ":" ++ decimal number else host

def canonicalizeResource (rules : UrlRules) (raw : Text) : Option Text := do
  let parts ← urlsplit rules (strip raw)
  let port ← netlocPort parts.netloc
  let defaultPort ← defaultPorts.lookup parts.scheme
  let host ← hostname rules parts.netloc
  if host = [] ∨ parts.fragment ≠ [] then none
  else
    some (urlunsplit
      { scheme := parts.scheme
        netloc := writtenNetloc host port defaultPort
        path := dropSlash parts.path
        query := parts.query
        fragment := [] })

inductive ResourceConfigError where
  | noValidEntries
  | derivedInvalid (derived : Text)
deriving Repr, DecidableEq

/-- The resources that the accepted set is made of. -/
def resourceSources (configured : Option (List Text)) (derived : Text) :
    List Text :=
  match configured with
  | none | some [] => [derived]
  | some configured => configured

def resolveAcceptedResources (rules : UrlRules)
    (configured : Option (List Text)) (derived : Text) :
    Except ResourceConfigError (List Text) :=
  match configured with
  | none | some [] =>
      match canonicalizeResource rules derived with
      | none => .error (.derivedInvalid derived)
      | some canon => .ok [canon]
  | some configured =>
      let out := (configured.filterMap (canonicalizeResource rules)).filter
        fun canon => canon ≠ []
      if out = [] then .error .noValidEntries else .ok out

inductive ResourceError where
  | required
  | invalidOrUnknown
deriving Repr, DecidableEq

structure ResourceDecision where
  ok : Bool
  bound : Option Text
  error : Option ResourceError
deriving Repr, DecidableEq

/-- `decide_resource`; `none` is the `IndexError` of an empty set. -/
def decideResource (rules : UrlRules) (requested : Option Text)
    (accepted : List Text) (require : Bool) : Option ResourceDecision :=
  match requested with
  | none =>
      if require then some ⟨false, none, some .required⟩
      else accepted.head?.map fun first => ⟨true, some first, none⟩
  | some requested =>
      match canonicalizeResource rules requested with
      | some canon =>
          if canon ∈ accepted then some ⟨true, some canon, none⟩
          else some ⟨false, none, some .invalidOrUnknown⟩
      | none => some ⟨false, none, some .invalidOrUnknown⟩

/-- The audience check of `load_access`; `none` stands for no enforcement and for
a token that is bound to nothing. -/
def audienceAccepted (rules : UrlRules) (accepted : Option (List Text))
    (boundResource : Option Text) : Bool :=
  match accepted, boundResource with
  | some accepted, some boundResource =>
      (canonicalizeResource rules boundResource).any fun canon =>
        canon ∈ accepted
  | _, _ => true

/-! ### What is written of a resource -/

/-- The parts that the canonical form is written of. -/
structure Resource where
  scheme : Text
  host : Text
  port : Option Nat
  path : Text
  query : Text
deriving Repr, DecidableEq

/-- The scheme, the host in lower case, the port unless it is the default one,
the path without a slash at its end, and the query. -/
def resourceOf (rules : UrlRules) (raw : Text) : Option Resource := do
  let parts ← urlsplit rules (strip raw)
  let port ← netlocPort parts.netloc
  let defaultPort ← defaultPorts.lookup parts.scheme
  let host ← hostname rules parts.netloc
  if host = [] ∨ parts.fragment ≠ [] then none
  else
    some
      { scheme := parts.scheme
        host := host
        port := if port = some defaultPort then none else port
        path := dropSlash parts.path
        query := parts.query }

def Resource.netloc (resource : Resource) : Text :=
  resource.host ++
    portText ((resource.port.map decimal).getD [])

/-- The host is read again as it is written: it has no brackets, and a colon just
before the canonical spelling of a port. -/
def Resource.HostKept (resource : Resource) : Prop :=
  .scalar '[' ∉ resource.host ∧ .scalar ']' ∉ resource.host ∧
    (.scalar ':' ∈ resource.host →
      resource.port = none ∧ ∃ name number, name ≠ [] ∧
        .scalar ':' ∉ name ∧
        resource.host = name ++ .scalar ':' :: decimal number ∧
        number ≤ 65535 ∧ defaultPorts.lookup resource.scheme ≠ some number)

/-- The canonical form is written of the same parts again: besides the host, no
slash is left at the end of the path and no whitespace at the end of it all. -/
def Resource.Kept (resource : Resource) : Prop :=
  resource.HostKept ∧ resource.path.getLast? ≠ some (.scalar '/') ∧
    ∀ char ∈ (resource.netloc ++ resource.path ++ resource.query).getLast?,
      char.isSpace = false

/-- Whatever is read of a text is kept. -/
def ResourceKept (rules : UrlRules) (raw : Text) : Prop :=
  ∀ resource, resourceOf rules raw = some resource → resource.Kept

/-- A token is accepted for the resource that the server bound it to. -/
def BoundAccepted (rules : UrlRules) (accepted : List Text) : Prop :=
  ∀ requested require decision bound,
    decideResource rules requested accepted require = some decision →
    decision.ok = true → decision.bound = some bound →
      audienceAccepted rules (some accepted) (some bound) = true

end Localmail

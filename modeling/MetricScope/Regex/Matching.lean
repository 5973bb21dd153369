import MetricScope.Regex.Node

/-!
# Matching

A pattern takes every set of positions in a text to the set of positions that it
can reach from there. A text is matched when some position can be reached from
some position of it.
-/

set_option autoImplicit false

namespace MetricScope.Regex

structure Position where
  index : Nat
  previous : Option Char
  rest : List Char
  deriving DecidableEq, Repr

namespace Position

def advance? (p : Position) (chars : CharSet) : Option Position :=
  match p.rest with
  | [] => none
  | c :: rest => if chars.contains c then some ⟨p.index + 1, some c, rest⟩ else none

def isWord (unicode : Bool) : Option Char → Bool
  | none => false
  | some c => if unicode then Unicode.isWord c else c.isAlphanum || c == '_'

def holds (p : Position) : Assertion → Bool
  | .textStart => p.previous.isNone
  | .textEnd => p.rest.isEmpty
  | .lineStart crlf =>
      p.previous.isNone || p.previous == some '\n' ||
        (crlf && p.previous == some '\r' && p.rest.head? != some '\n')
  | .lineEnd crlf =>
      p.rest.isEmpty ||
        (if crlf then
          p.rest.head? == some '\r' ||
            (p.rest.head? == some '\n' && p.previous != some '\r')
        else p.rest.head? == some '\n')
  | .wordBoundary unicode => isWord unicode p.previous != isWord unicode p.rest.head?
  | .notWordBoundary unicode => isWord unicode p.previous == isWord unicode p.rest.head?
  | .wordStart unicode => !isWord unicode p.previous && isWord unicode p.rest.head?
  | .wordEnd unicode => isWord unicode p.previous && !isWord unicode p.rest.head?
  | .wordStartHalf unicode => !isWord unicode p.previous
  | .wordEndHalf unicode => !isWord unicode p.rest.head?

def allFrom (index : Nat) (previous : Option Char) : List Char → List Position
  | [] => [⟨index, previous, []⟩]
  | c :: rest => ⟨index, previous, c :: rest⟩ :: allFrom (index + 1) (some c) rest

end Position

abbrev Positions := List Position

namespace Positions

def all (text : List Char) : Positions :=
  (Position.allFrom 0 none text).reverse

def upTo (p : Position) (qs : Positions) : Positions :=
  qs.dropWhile fun q => p.index < q.index

def union : Positions → Positions → Positions
  | [], qs => qs
  | p :: ps, qs =>
      (qs.takeWhile fun q => p.index < q.index) ++
        p :: union ps (qs.dropWhile fun q => p.index ≤ q.index)

def without : Positions → Positions → Positions
  | [], _ => []
  | p :: ps, qs =>
      let front := upTo p qs
      if front.head?.any fun q => q.index = p.index then without ps front
      else p :: without ps front

/-- What can be reached in at most `n` applications of `step`: `found` has been reached
already, and `edge` is the part of it that was reached last. -/
def reach (step : Positions → Positions) : Nat → Positions → Positions → Positions
  | 0, found, _ => found
  | n + 1, found, edge =>
      match without (step edge) found with
      | [] => found
      | fresh => reach step n (union fresh found) fresh

end Positions

namespace Node

def advance (bound : Nat) : Node → Positions → Positions
  | .empty, ps => ps
  | .set chars, ps => ps.filterMap fun p => p.advance? chars
  | .assertion condition, ps => ps.filter fun p => p.holds condition
  | .seq a b, ps => b.advance bound (a.advance bound ps)
  | .alt a b, ps => Positions.union (a.advance bound ps) (b.advance bound ps)
  | .loop least most body, ps =>
      let first := Nat.repeat (body.advance bound) least ps
      let more := match most with
        | none => bound
        | some most => min (most - least) bound
      Positions.reach (body.advance bound) more first first

def isMatch (node : Node) (text : List Char) : Bool :=
  !(node.advance (text.length + 1) (Positions.all text)).isEmpty

end Node

end MetricScope.Regex

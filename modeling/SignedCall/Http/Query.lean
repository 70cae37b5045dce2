import SignedCall.FieldMap
import SignedCall.Http.Percent
import SignedCall.Text.Split

/-!
# Queries

The parameters of a request: names in the order in which they were first given, each with its values. A query is written with
every name and value percent-encoded, in that order; its canonical form is sorted instead.
-/

namespace SignedCall

/-- The parameters of a request, unencoded. -/
abbrev Query := FieldMap (List String)

namespace Query

/-- The pairs of a name and one of its values, in order. -/
def pairs (q : Query) : List (String × String) :=
  q.entries.flatMap fun e => e.2.map fun v => (e.1, v)

/-- Adds one value to a parameter, after those it has. -/
def add (q : Query) (name value : String) : Query :=
  q.insert name ((q.get? name).getD [] ++ [value])

/-- The parameters with the given pairs added one after the other. -/
def ofPairs (ps : List (String × String)) : Query :=
  ps.foldl (fun q p => q.add p.1 p.2) FieldMap.empty

/-- The first value of a parameter. -/
def first? (q : Query) (name : String) : Option String := (q.get? name).bind List.head?

/-- A pair with both parts percent-encoded. -/
def encodePair (p : String × String) : String × String := (Percent.encode p.1, Percent.encode p.2)

/-- The text of a list of encoded pairs. -/
def joinPairs (ps : List (String × String)) : String :=
  "&".intercalate (ps.map fun p => p.1 ++ "=" ++ p.2)

/-- The text of a query, in the order of its parameters. -/
def encode (q : Query) : String := joinPairs (q.pairs.map encodePair)

/-- The order of encoded pairs: by name, then by value. -/
def pairLE (a b : String × String) : Bool :=
  a.1 < b.1 || (a.1 == b.1 && a.2 ≤ b.2)

/-- The encoded pairs in the order of the canonical form. -/
def sortedPairs (q : Query) : List (String × String) := (q.pairs.map encodePair).mergeSort pairLE

/-- The canonical text of a query: its encoded pairs sorted by name, then by value. -/
def canonical (q : Query) : String := joinPairs q.sortedPairs

/-- The pair that one piece of a query text stands for; a piece without an equals sign has an empty value. -/
def readPair (piece : List Char) : String × String :=
  let (name, value) := Text.cutAt '=' piece
  (Percent.decodeQuery name, Percent.decodeQuery (value.getD []))

/-- The pairs of a query text; empty pieces are passed over. -/
def readPairs (s : String) : List (String × String) :=
  ((Text.splitOnChar '&' s.toList).filter (!·.isEmpty)).map readPair

/-- The parameters of a query text. -/
def read (s : String) : Query := ofPairs (readPairs s)

end Query

end SignedCall

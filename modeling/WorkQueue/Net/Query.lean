import WorkQueue.Net.Percent
import WorkQueue.Text.Split
import WorkQueue.Text.Utf8

/-! # Queries

The pairs of a query stand between ampersands. A name ends at its first equals sign, a plus
sign is a space, and bytes that are no character are replaced.
-/
namespace WorkQueue.Net

def queryText (cs : List Char) : String :=
  Text.ofUtf8Lossy (percentDecode (cs.map fun c => if c = '+' then ' ' else c))

def queryPairs (query : String) : List (String × String) :=
  let pairs := (Text.splitBy (· == '&') query.toList).filter fun pair => !pair.isEmpty
  pairs.map fun pair =>
    let name := pair.takeWhile (· != '=')
    (queryText name, queryText (pair.drop (name.length + 1)))

end WorkQueue.Net

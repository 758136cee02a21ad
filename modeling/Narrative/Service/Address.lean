import Narrative.Text.Percent

/-!
# Addresses

The address of a request names a resource by the segments of its path.  Segments `.` and `..` are
resolved before the escapes are; a client escapes the path twice, so escapes are resolved twice.
-/

namespace Narrative.Address

/-- The parts of a text between the occurrences of a separator. -/
def splitBy (separator : Char) : List Char → List (List Char)
  | [] => [[]]
  | c :: rest =>
    match splitBy separator rest with
    | [] => [[c]]
    | part :: parts => if c = separator then [] :: part :: parts else (c :: part) :: parts

/-- Drop the name of a host, which stands behind two slashes. -/
def dropHost : List Char → List Char
  | '/' :: '/' :: rest => rest.dropWhile (· ≠ '/')
  | text => text

/-- The path of an address: what stands before the query and the fragment, without the host. -/
def path (address : String) : List Char :=
  dropHost (address.toList.takeWhile fun c => c ≠ '?' && c ≠ '#')

/-- Follow segments from the root: `.` stays, and `..` goes one level up. -/
def follow (visited : List (List Char)) : List (List Char) → List (List Char)
  | [] => visited.reverse
  | ['.'] :: rest => follow visited rest
  | ['.', '.'] :: rest => follow visited.tail rest
  | segment :: rest => follow (segment :: visited) rest

/-- Join segments to a path. -/
def join : List (List Char) → List Char
  | [] => []
  | [segment] => segment
  | segment :: rest => segment ++ '/' :: join rest

/-- The segments of a path; slashes in front do not count. -/
def segments (path : List Char) : List String :=
  let path := join (follow [] (splitBy '/' (path.dropWhile (· = '/'))))
  (splitBy '/' (Text.resolveEscapes (Text.resolveEscapes path))).map String.ofList

end Narrative.Address

import CredentialGate.Url.Basic

/-! Segments of paths. A segment of one dot stands for no segment, and one of two dots takes the
segment before it away. -/
namespace CredentialGate.Url

/-- The characters that are passed over wherever they stand. -/
def isPassed (c : Char) : Bool := c == '\t' || c == '\n' || c == '\r'

def plainDots : List Char → List Char
  | '%' :: '2' :: 'e' :: rest | '%' :: '2' :: 'E' :: rest => '.' :: plainDots rest
  | c :: rest => c :: plainDots rest
  | [] => []

def isOneDot (segment : List Char) : Bool := plainDots segment == ['.']
def isTwoDots (segment : List Char) : Bool := plainDots segment == ['.', '.']

def isDrive : List Char → Bool
  | [letter, mark] => letter.isAlpha && (mark == ':' || mark == '|')
  | _ => false

/-- The segments without the last one, unless it names a drive. -/
def goUp (done : List String) : List String :=
  match done.getLast? with
  | some last => if isDrive last.toList then done else done.dropLast
  | none => []

/-- Adds a segment that is encoded. `further` when a slash stands behind it. -/
def addSegment (kind : SchemeKind) (done : List String) (segment : List Char) (further : Bool) :
    List String :=
  let open_ (done : List String) := if further then done else done ++ [""]
  if isTwoDots segment then open_ (goUp done)
  else if isOneDot segment then open_ done
  else if kind = .file ∧ done.isEmpty ∧ isDrive segment then
    done ++ [String.ofList (segment.take 1 ++ [':'])]
  else done ++ [String.ofList segment]

/-- The path of a file has no empty segments in front. -/
def settle (kind : SchemeKind) (parts : List String) : List String :=
  if kind = .file then
    let rest := parts.dropWhile (·.isEmpty)
    if rest.isEmpty then [""] else rest
  else parts

def isSlash (kind : SchemeKind) (c : Char) : Bool := c == '/' || (kind.isSpecial && c == '\\')

/-- Reads segments up to a query, a fragment or the end. `segment` holds what has been read of the
current one, in reverse. -/
def readSegments (kind : SchemeKind) (done : List String) (segment : List Char) :
    List Char → List String × List Char
  | [] => (addSegment kind done (encoded segment) false, [])
  | c :: rest =>
    if c = '?' ∨ c = '#' then (addSegment kind done (encoded segment) false, c :: rest)
    else if isSlash kind c then
      readSegments kind (addSegment kind done (encoded segment) true) [] rest
    else readSegments kind done (c :: segment) rest
where encoded (segment : List Char) : List Char := (encode pathSet segment.reverse).toList

/-- Takes an empty last segment away, but not the only one. -/
def dropEmptyLast (parts : List String) : List String :=
  if 1 < parts.length ∧ parts.getLast? = some "" then parts.dropLast else parts

/-- Adds a segment from a text that may hold anything. The texts of one and of two dots are not
added; others are encoded, and tabs and line ends in them are dropped. -/
def push (kind : SchemeKind) (parts : List String) (text : String) : List String :=
  if text = "." ∨ text = ".." then parts
  else
    let set := if kind.isSpecial then specialSegmentSet else segmentSet
    let segment := (encode set (text.toList.filter (!isPassed ·))).toList
    let parts := if parts = [""] then [] else parts
    settle kind (addSegment kind parts segment false)

/-- The address of a place below this one; none below a path that is not looked into. -/
def below? (u : Url) (names : List String) : Option Url :=
  match u.route with
  | .opaqueText _ => none
  | .segments parts =>
    let kind := schemeKind u.scheme
    some { u with route := .segments (names.foldl (push kind) (dropEmptyLast parts)) }

end CredentialGate.Url

import TypeAssertions.Glob.Pattern
import TypeAssertions.Path
import TypeAssertions.Text.Utf8

/-!
# Matching paths with globs

A pattern matches a whole path, byte by byte.  `restsAll` is what a list of tokens can leave of a
text; the text is matched when nothing is left.  `patternsOf` reads the patterns by which test files
are found.
-/

namespace TypeAssertions.Glob

/-- The first and last byte of the ranges of bytes that a range of characters stands for. -/
def byteRanges (range : Char × Char) : List (UInt8 × UInt8) :=
  let single (b : UInt8) : UInt8 × UInt8 := (b, b)
  let first := String.utf8EncodeChar range.1
  let last := String.utf8EncodeChar range.2
  if range.1 = range.2 then first.map single
  else
    first.dropLast.map single ++ [(first.getLast?.getD 0, last.head?.getD 0)]
      ++ (last.drop 1).map single

/-- Whether a byte is in a class. -/
def inClass (negated : Bool) (ranges : List (Char × Char)) (b : UInt8) : Bool :=
  negated != (ranges.flatMap byteRanges).any fun range => range.1 ≤ b && b ≤ range.2

/-- The ends of a byte string, the whole of it first. -/
def suffixes : List UInt8 → List (List UInt8)
  | [] => [[]]
  | b :: bs => (b :: bs) :: suffixes bs

/-- The byte of a slash. -/
def slash : UInt8 := 47

/-- What follows the slashes of a byte string. -/
def afterSlashes : List UInt8 → List (List UInt8)
  | [] => []
  | b :: bs => if b = slash then bs :: afterSlashes bs else afterSlashes bs

/-- What follows a byte string at the start of another one. -/
def afterLiteral : List UInt8 → List UInt8 → List (List UInt8)
  | [], bs => [bs]
  | _ :: _, [] => []
  | a :: as, b :: bs => if a = b then afterLiteral as bs else []

mutual

/-- Whether a branch has no tokens, or only groups of such branches. -/
def isVoid : List Token → Bool
  | [] => true
  | .alternatives branches :: ts => allVoid branches && isVoid ts
  | _ :: _ => false

/-- Whether all branches are void. -/
def allVoid : List (List Token) → Bool
  | [] => true
  | branch :: branches => isVoid branch && allVoid branches

end

mutual

/-- What a token can leave of a byte string that it matches the start of. -/
def rests : Token → List UInt8 → List (List UInt8)
  | .literal c, bs => afterLiteral (String.utf8EncodeChar c) bs
  | .one, bs => bs.tail?.toList
  | .many, bs => suffixes bs
  | .leadingDirectories, bs => bs :: afterSlashes bs
  | .innerDirectories, bs =>
    match bs with
    | b :: rest => if b = slash then rest :: afterSlashes rest else []
    | [] => []
  | .trailingDirectories, bs =>
    match bs with
    | b :: rest => if b = slash then suffixes rest else []
    | [] => []
  | .oneOf negated ranges, bs =>
    match bs with
    | b :: rest => if inClass negated ranges b then [rest] else []
    | [] => []
  | .alternatives branches, bs => if allVoid branches then [bs] else restsAny branches bs

/-- What tokens in turn can leave of one of some byte strings. -/
def restsAll : List Token → List (List UInt8) → List (List UInt8)
  | [], starts => starts
  | t :: ts, starts => restsAll ts (starts.flatMap fun bs => rests t bs).eraseDups

/-- What one of some branches can leave of a byte string; a void branch matches nothing beside
others. -/
def restsAny : List (List Token) → List UInt8 → List (List UInt8)
  | [], _ => []
  | branch :: branches, bs =>
    (if isVoid branch then [] else restsAll branch [bs]) ++ restsAny branches bs

end

/-- Whether a pattern consists of directories alone, which then stand for any path. -/
def isAnyPath : List Token → Bool
  | [.leadingDirectories] => true
  | _ => false

/-- Whether a pattern matches a path. -/
def matchesPath (pattern : List Token) (p : Path) : Bool :=
  isAnyPath pattern || (restsAll pattern [Text.Utf8.encode p.chars]).contains []

/-- A pattern that cannot be read. -/
structure PatternError where
  pattern : String
  fault : Fault
  deriving DecidableEq, Repr

/-- The wording of a pattern that cannot be read. -/
def PatternError.message (e : PatternError) : String :=
  s!"invalid pattern `{e.pattern}`: error parsing glob '{e.pattern}': {e.fault.message}"

/-- The patterns of test files, unless others are given. -/
def defaultPatterns : List String := ["**/*.test-d.ts", "**/*.test-d.tsx"]

/-- The tokens of one of the patterns given. -/
def parseGiven (pattern : String) : Except PatternError (List Token) :=
  (parse pattern).mapError (PatternError.mk pattern)

/-- The patterns given, or the default ones when none is. -/
def patternsOf (given : List String) : Except PatternError (List (List Token)) :=
  (if given.isEmpty then defaultPatterns else given).mapM parseGiven

/-- Whether one of some patterns matches a path. -/
def anyMatches (patterns : List (List Token)) (p : Path) : Bool :=
  patterns.any fun pattern => matchesPath pattern p

end TypeAssertions.Glob

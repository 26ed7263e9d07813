import TypeAssertions.Json.Token

/-!
# JSON documents with places

A `Tree` is a JSON document that remembers where its parts stand in the text.  Every text has a
tree: where the text stops being a document the tree breaks off, and the break says which failure
each kind of reader reports when it comes to it.  Readers go through a tree from left to right, so
they report whichever comes first in the text, data of the wrong kind or broken syntax.

`assemble` builds the tree of a list of tokens with a stack of the containers that are open.
-/

namespace TypeAssertions.Json

/-- The failures at the point where a container breaks off: for a reader that goes on to the end
of the container, for one that passes over it, for one that wants no more elements, and for one
that takes what comes next for a name. -/
structure Break where
  read : Failure
  skip : Failure
  full : Failure
  name : Failure

/-- The break at which all readers report the same. -/
def Break.all (f : Failure) : Break := ⟨f, f, f, f⟩

/-- How a container ends: with a bracket, after which `stop` bytes are read, or broken off. -/
inductive Ending where
  | closed (stop : Nat)
  | broken (b : Break)

/-- The name of a member, the bytes read when it turns out to be a repetition, and the failure
when its member should have been the only one. -/
structure Key where
  name : Literal
  repeated : Nat
  single : Failure

/-- A JSON document with places; containers start at byte `start`. -/
inductive Tree where
  | literal (l : Literal)
  | array (start : Nat) (items : List Tree) (ending : Ending)
  | object (start : Nat) (members : List (Key × Tree)) (ending : Ending)
  | absent (failure : Failure)

/-- The bytes read once the first byte of a tree is. -/
def Tree.entered : Tree → Nat
  | .literal l => l.start + 1
  | .array start _ _ | .object start _ _ => start + 1
  | .absent failure => failure.offset

/-- A container that is open, with its last element or member first.  A `member` waits for the
value of its name. -/
inductive Frame where
  | array (start : Nat) (items : List Tree)
  | object (start : Nat) (members : List (Key × Tree))
  | member (start : Nat) (members : List (Key × Tree)) (name : Literal) (repeated : Nat)

/-- What may come next. -/
inductive Want where
  | value
  | firstItem
  | item
  | afterItem
  | firstName
  | name
  | colon
  | afterMember
  deriving DecidableEq

/-- The tree of open containers around a part at which the text breaks off. -/
def abandon (f : Failure) : Tree → List Frame → Tree
  | t, [] => t
  | t, .array start items :: rest =>
    abandon f (.array start (items.reverse ++ [t]) (.broken (.all f))) rest
  | _, .object start members :: rest =>
    abandon f (.object start members.reverse (.broken (.all f))) rest
  | t, .member start members name repeated :: rest =>
    abandon f (.object start (members.reverse ++ [(⟨name, repeated, f⟩, t)]) (.broken (.all f)))
      rest

/-- The tree of open containers of which the innermost breaks off between its parts. -/
def breakOff (b : Break) : List Frame → Tree
  | [] => .absent b.read
  | .array start items :: rest =>
    abandon b.read (.array start items.reverse (.broken b)) rest
  | .object start members :: rest | .member start members _ _ :: rest =>
    abandon b.read (.object start members.reverse (.broken b)) rest

/-- The open containers once a value is complete, and what may follow it; none when the value is
the whole document.  The value is followed by `next` and the text has `size` bytes. -/
def resume (size : Nat) (next : List Token) (t : Tree) : List Frame → Option (List Frame × Want)
  | [] => none
  | .array start items :: rest => some (.array start (t :: items) :: rest, .afterItem)
  | .object start members :: rest => some (.object start members :: rest, .afterMember)
  | .member start members name repeated :: rest =>
    let single : Failure :=
      match next with
      | [] => ⟨.endInObject, size⟩
      | token :: _ => ⟨.expectedValue, token.start⟩
    some (.object start ((⟨name, repeated, single⟩, t) :: members) :: rest, .afterMember)

/-- The bytes read when a name before the tokens `next` turns out to be a repetition. -/
def repeatedAt (size : Nat) : List Token → Nat
  | [] => size
  | .mark '\x7d' start :: _ => start + 1
  | token :: _ => token.start

/-- The failure of a reader that takes a token, which is no string, for a name. -/
def notAName : Token → Failure
  | .literal l =>
    match l.read with
    | .error f => f
    | .ok .null => ⟨.invalidType .null "variant identifier", l.stop⟩
    | .ok (.bool b) => ⟨.invalidType (.bool b) "variant identifier", l.stop⟩
    | .ok (.number n) => ⟨.invalidType (.number n) "variant identifier", l.stop⟩
    | .ok (.string s) => ⟨.invalidType (.string s) "variant identifier", l.stop⟩
  | .mark '[' start => ⟨.invalidType .sequence "variant identifier", start⟩
  | .mark '\x7b' start => ⟨.invalidType .map "variant identifier", start⟩
  | .mark _ start => ⟨.expectedValue, start + 1⟩

/-- The break at a token that cannot follow, reported as `read` and `skip` by those readers. -/
def breakAt (token : Token) (read skip full : Problem) : Break :=
  ⟨⟨read, token.start + 1⟩, ⟨skip, token.start + 1⟩, ⟨full, token.start + 1⟩, notAName token⟩

/-- The break at the end of a text of `size` bytes. -/
def breakAtEnd (size : Nat) (read skip : Problem) : Break :=
  ⟨⟨read, size⟩, ⟨skip, size⟩, ⟨read, size⟩, ⟨.endInValue, size⟩⟩

/-- What one token does to the open containers. -/
inductive Move where
  | push (frames : List Frame) (want : Want)
  | complete (t : Tree) (frames : List Frame)
  | stop (t : Tree)

/-- The move of a token where a value may come. -/
def valueMove (frames : List Frame) : Token → Move
  | .literal l =>
    match l.skip with
    | .ok () => .complete (.literal l) frames
    | .error f => .stop (abandon f (.literal l) frames)
  | .mark '[' start => .push (.array start [] :: frames) .firstItem
  | .mark '\x7b' start => .push (.object start [] :: frames) .firstName
  | .mark _ start =>
    let f : Failure := ⟨.expectedValue, start + 1⟩
    .stop (abandon f (.absent f) frames)

/-- The move that closes the innermost container, which ends after `stop` bytes. -/
def closeMove (stop : Nat) : List Frame → Move
  | .array start items :: rest => .complete (.array start items.reverse (.closed stop)) rest
  | .object start members :: rest | .member start members _ _ :: rest =>
    .complete (.object start members.reverse (.closed stop)) rest
  | [] => .stop (.absent ⟨.expectedValue, stop⟩)

/-- The move of a token that should be the name of a member; `next` follows it. -/
def nameMove (size : Nat) (frames : List Frame) (token : Token) (next : List Token)
    (otherwise : Break) : Move :=
  match token, frames with
  | .literal l, .object start members :: rest =>
    if l.quoted then
      let frame := Frame.member start members l (repeatedAt size next)
      match l.skip with
      | .ok () => .push (frame :: rest) .colon
      | .error f => .stop (abandon f (.absent f) (frame :: rest))
    else .stop (breakOff otherwise frames)
  | _, _ => .stop (breakOff otherwise frames)

/-- The move of a token; `next` follows it and the text has `size` bytes. -/
def Want.move (size : Nat) (frames : List Frame) (token : Token) (next : List Token) :
    Want → Move
  | .value => valueMove frames token
  | .firstItem =>
    match token with
    | .mark ']' start => closeMove (start + 1) frames
    | _ => valueMove frames token
  | .item =>
    match token with
    | .mark ']' _ =>
      .stop (breakOff (breakAt token .trailingComma .expectedValue .trailingComma) frames)
    | _ => valueMove frames token
  | .afterItem =>
    match token with
    | .mark ',' _ => .push frames .item
    | .mark ']' start => closeMove (start + 1) frames
    | _ =>
      .stop (breakOff (breakAt token .expectedListEnd .expectedListEnd .trailingCharacters) frames)
  | .firstName =>
    match token with
    | .mark '\x7d' start => closeMove (start + 1) frames
    | _ =>
      nameMove size frames token next
        (breakAt token .keyNotString .keyNotString .trailingCharacters)
  | .name =>
    match token with
    | .mark '\x7d' _ =>
      .stop (breakOff (breakAt token .trailingComma .keyNotString .trailingComma) frames)
    | _ =>
      nameMove size frames token next
        (breakAt token .keyNotString .keyNotString .trailingCharacters)
  | .colon =>
    match token with
    | .mark ':' _ => .push frames .value
    | _ =>
      let f : Failure := ⟨.expectedColon, token.start + 1⟩
      .stop (abandon f (.absent f) frames)
  | .afterMember =>
    match token with
    | .mark ',' _ => .push frames .name
    | .mark '\x7d' start => closeMove (start + 1) frames
    | _ =>
      .stop
        (breakOff (breakAt token .expectedObjectEnd .expectedObjectEnd .trailingCharacters) frames)

/-- The tree of open containers where a text of `size` bytes ends too early. -/
def Want.atEnd (size : Nat) (frames : List Frame) : Want → Tree
  | .value | .item =>
    let f : Failure := ⟨.endInValue, size⟩
    abandon f (.absent f) frames
  | .firstItem | .afterItem => breakOff (breakAtEnd size .endInList .endInList) frames
  | .firstName | .afterMember => breakOff (breakAtEnd size .endInObject .endInObject) frames
  | .name => breakOff (breakAtEnd size .endInValue .endInObject) frames
  | .colon =>
    let f : Failure := ⟨.endInObject, size⟩
    abandon f (.absent f) frames

/-- The tree of a text of `size` bytes with containers open, and the tokens after it. -/
def assemble (size : Nat) (frames : List Frame) (want : Want) : List Token → Tree × List Token
  | [] => (want.atEnd size frames, [])
  | token :: next =>
    match want.move size frames token next with
    | .push frames want => assemble size frames want next
    | .stop t => (t, [])
    | .complete t frames =>
      match resume size next t frames with
      | some (frames, want) => assemble size frames want next
      | none => (t, next)

/-- The tree of a text, and the tokens after it. -/
def Tree.ofText (text : List Char) : Tree × List Token :=
  assemble (Text.byteLength text) [] .value (tokens text)

end TypeAssertions.Json

import TypeAtlas.Json.Token

/-!
# Reading JSON

The reader is a machine that takes one token at a time. Its state is the stack of lists
and maps that are open around the place it has come to, each with what it holds so far,
and what may come next at that place. Every token is one step, so reading a document is
one pass over its tokens.
-/

namespace TypeAtlas.Json

/-- **An open list or map** around the value being read. -/
inductive Frame where
  /-- A list and its items so far, the last one first. -/
  | list (before : List Data)
  /-- A map, its entries so far, and the key of the value being read. -/
  | map (before : List (String × Data)) (key : String)

/-- **What may come next.** -/
inductive Phase where
  /-- A value. -/
  | value
  /-- The first item of a list, or its end. -/
  | firstItem
  /-- The first key of a map, or its end. -/
  | firstKey
  /-- A further key of a map with these entries. -/
  | key (entries : List (String × Data))
  /-- The colon after a key of a map with these entries. -/
  | colon (entries : List (String × Data)) (key : String)
  /-- What follows a finished value. -/
  | finished (value : Data)

/-- **The state of the reader.** -/
structure Reader where
  /-- The open lists and maps, the innermost first. -/
  frames : List Frame
  /-- What may come next. -/
  phase : Phase

namespace Reader

/-- How many lists and maps may be open at once. -/
def depthLimit : Nat := 127

/-- Before the first token. -/
def start : Reader := ⟨[], .value⟩

/-- The step on a token where a value is to come. -/
def beginValue (frames : List Frame) : Token → Option Reader
  | .atom value => some ⟨frames, .finished value⟩
  | .openList =>
    if frames.length < depthLimit then some ⟨.list [] :: frames, .firstItem⟩ else none
  | .openMap => if frames.length < depthLimit then some ⟨frames, .firstKey⟩ else none
  | _ => none

/-- The step on a token after a finished value. -/
def afterValue (frames : List Frame) (value : Data) (token : Token) : Option Reader :=
  match frames, token with
  | .list before :: outer, .comma => some ⟨.list (value :: before) :: outer, .value⟩
  | .list before :: outer, .closeList =>
    some ⟨outer, .finished (.list (value :: before).reverse)⟩
  | .map before key :: outer, .comma =>
    some ⟨outer, .key (Entries.set key value before)⟩
  | .map before key :: outer, .closeMap =>
    some ⟨outer, .finished (.map (Entries.set key value before))⟩
  | _, _ => none

/-- **One step of the reader**; there is none when the token may not come here. -/
def step (r : Reader) (token : Token) : Option Reader :=
  match r.phase, token with
  | .value, token => beginValue r.frames token
  | .firstItem, .closeList =>
    match r.frames with
    | .list _ :: outer => some ⟨outer, .finished (.list [])⟩
    | _ => none
  | .firstItem, token => beginValue r.frames token
  | .firstKey, .closeMap => some ⟨r.frames, .finished (.map [])⟩
  | .firstKey, .atom (.text key) => some ⟨r.frames, .colon [] key⟩
  | .key entries, .atom (.text key) => some ⟨r.frames, .colon entries key⟩
  | .colon entries key, .colon => some ⟨.map entries key :: r.frames, .value⟩
  | .finished value, token => afterValue r.frames value token
  | _, _ => none

/-- The document value of a reader that has come to the end. -/
def result? (r : Reader) : Option Data :=
  match r.frames, r.phase with
  | [], .finished value => some value
  | _, _ => none

end Reader

/-- **Reading a document**: its value, if the text is JSON and nests no deeper than the
limit. Of two entries of a map with the same key the later one stays. -/
def read? (text : String) : Option Data := do
  let r ← (← tokens text.toList).foldlM Reader.step Reader.start
  r.result?

end TypeAtlas.Json

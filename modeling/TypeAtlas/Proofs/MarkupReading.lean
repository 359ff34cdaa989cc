import TypeAtlas.Proofs.Label

/-!
# Reading markup

A reader of markup goes through a text once, character by character. It keeps the elements that
are open, the innermost first; a mark that closes an element has to have the name of the one
that was opened last, and at the end none may be open. An entity is read as the character that
it stands for. So what has been read is a tree of elements and characters (`Markup.Node`), and
a text that is no markup is not read at all.

The reader knows nothing of how the text came about. What tame markup is written as, it reads
as the same tree, with the texts taken apart into their characters
(`Markup.Tame.run_render`).
-/

namespace TypeAtlas.Markup

/-- **What is read of markup**: a character, or an element with what is in it. -/
inductive Node where
  /-- A character. -/
  | char (c : Char)
  /-- An element with attributes around other nodes. -/
  | element (name : String) (attributes : List (String × String)) (content : List Node)

mutual

/-- **What a piece of markup is to be read as.** -/
def nodes : Markup → List Node
  | text content => content.toList.map Node.char
  | space => [.char '\u00a0']
  | element name attributes content => [.element name attributes (nodesAll content)]

/-- What several pieces are to be read as, one after the other. -/
def nodesAll : List Markup → List Node
  | [] => []
  | piece :: rest => nodes piece ++ nodesAll rest

end

/-! ## The reader -/

/-- **An open element**, and what is before it in the element around it, the last one first. -/
structure OpenElement where
  /-- The name of the element. -/
  name : String
  /-- Its attributes. -/
  attributes : List (String × String)
  /-- What is before it. -/
  before : List Node

/-- **Where the reader stands.** What it has taken is in reverse. -/
inductive Place where
  /-- Between marks. -/
  | content
  /-- In an entity. -/
  | entity (taken : List Char)
  /-- In the first word of a mark. -/
  | mark (taken : List Char)
  /-- In a mark, after its name and some attributes, at the name of a further one. -/
  | key (name : String) (attributes : List (String × String)) (taken : List Char)
  /-- In the value of an attribute. -/
  | value (name : String) (attributes : List (String × String)) (key : String)
    (taken : List Char)
  /-- After an attribute. -/
  | afterValue (name : String) (attributes : List (String × String))

/-- **The state of the reader.** -/
structure Reader where
  /-- The open elements, the innermost first. -/
  frames : List OpenElement
  /-- What has been read of the content of the innermost one, the last node first. -/
  content : List Node
  /-- Where the reader stands. -/
  place : Place

namespace Reader

/-- Before the first character. -/
def start : Reader := ⟨[], [], .content⟩

/-- A node has been read. -/
def push (r : Reader) (node : Node) : Reader := ⟨r.frames, node :: r.content, .content⟩

/-- An element is opened. -/
def enter (r : Reader) (name : String) (attributes : List (String × String)) : Reader :=
  ⟨⟨name, attributes, r.content⟩ :: r.frames, [], .content⟩

/-- **An element is closed**, if it is the one that was opened last. -/
def leave (r : Reader) (name : String) : Option Reader :=
  match r.frames with
  | [] => none
  | frame :: outer =>
    if frame.name = name then
      some ⟨outer, .element name frame.attributes r.content.reverse :: frame.before, .content⟩
    else none

/-- The reader goes on to another place. -/
def goTo (r : Reader) (place : Place) : Reader := ⟨r.frames, r.content, place⟩

/-- **One character is read**, if it may come here. -/
def step (r : Reader) (c : Char) : Option Reader :=
  match r.place with
  | .content =>
    if c = '<' then some (r.goTo (.mark []))
    else if c = '&' then some (r.goTo (.entity []))
    else if c = '>' then none
    else some (r.push (.char c))
  | .entity taken =>
    if c = ';' then (Entity.decode? taken.reverse).map fun d => r.push (.char d)
    else some (r.goTo (.entity (c :: taken)))
  | .mark taken =>
    if c = '>' then
      match taken.reverse with
      | '/' :: name => r.leave (String.ofList name)
      | name => some (r.enter (String.ofList name) [])
    else if c = ' ' then some (r.goTo (.key (String.ofList taken.reverse) [] []))
    else if c = '<' then none
    else some (r.goTo (.mark (c :: taken)))
  | .key name attributes taken =>
    if c = '\x27' then
      match taken with
      | '=' :: key => some (r.goTo (.value name attributes (String.ofList key.reverse) []))
      | _ => none
    else if c = '<' ∨ c = '>' then none
    else some (r.goTo (.key name attributes (c :: taken)))
  | .value name attributes key taken =>
    if c = '\x27' then
      some (r.goTo (.afterValue name (attributes ++ [(key, String.ofList taken.reverse)])))
    else if c = '<' then none
    else some (r.goTo (.value name attributes key (c :: taken)))
  | .afterValue name attributes =>
    if c = '>' then some (r.enter name attributes)
    else if c = ' ' then some (r.goTo (.key name attributes []))
    else none

/-- A text is read, from a state on. -/
def run (r : Reader) (cs : List Char) : Option Reader := cs.foldlM step r

/-- What has been read, if nothing is open. -/
def result? (r : Reader) : Option (List Node) :=
  match r.frames, r.place with
  | [], .content => some r.content.reverse
  | _, _ => none

end Reader

/-- **Reading a text** of markup. -/
def read? (cs : List Char) : Option (List Node) := (Reader.start.run cs).bind Reader.result?

/-! ## What is written is read -/

namespace Reader

variable {r r' : Reader} {c : Char} {cs ds : List Char}

theorem run_cons (h : r.step c = some r') : r.run (c :: cs) = r'.run cs := by
  rw [run, List.foldlM_cons, h]
  rfl

theorem run_append (h : r.run cs = some r') : r.run (cs ++ ds) = r'.run ds := by
  rw [run, List.foldlM_append]
  change r.run cs >>= _ = _
  rw [h]
  rfl

/-- At some places the reader takes one character after the other. -/
theorem run_taking (r : Reader) (place : List Char → Place) (cs : List Char)
    (h : ∀ taken, ∀ c ∈ cs, step (r.goTo (place taken)) c = some (r.goTo (place (c :: taken))))
    (taken : List Char) :
    run (r.goTo (place taken)) cs = some (r.goTo (place (cs.reverse ++ taken))) := by
  induction cs generalizing taken with
  | nil => rfl
  | cons c cs ih =>
    rw [run_cons (h taken c List.mem_cons_self),
      ih (fun taken d hd => h taken d (List.mem_cons_of_mem _ hd)), List.reverse_cons,
      List.append_assoc, List.singleton_append]

end Reader

/-! ### Character data -/

section Content

open Reader

variable {frames : List OpenElement} {content : List Node}

/-- **An entity is read as the character that it stands for.** -/
theorem run_entity {body : List Char} {c : Char} (h : Entity.decode? body = some c) :
    run ⟨frames, content, .content⟩ ('&' :: body ++ [';'])
      = some ⟨frames, .char c :: content, .content⟩ := by
  have hbody : run (goTo ⟨frames, content, .content⟩ (.entity [])) body
      = some (goTo ⟨frames, content, .content⟩ (.entity body.reverse)) := by
    have htaking := run_taking ⟨frames, content, .content⟩ .entity body (fun taken d hd => ?_) []
    · rwa [List.append_nil] at htaking
    · have hentity := List.all_eq_true.1 (Entity.all_of_decode? h) d hd
      have hne : d ≠ ';' := by
        rintro rfl
        exact absurd hentity (by decide)
      simp [step, goTo, hne]
  have hamp : step ⟨frames, content, .content⟩ '&'
      = some (goTo ⟨frames, content, .content⟩ (.entity [])) := rfl
  rw [List.cons_append, run_cons hamp, run_append hbody]
  simp [run, step, goTo, push, h]

/-- A character is read back from the character data for it. -/
theorem run_encodeChar (c : Char) :
    run ⟨frames, content, .content⟩ (Entity.encodeChar c)
      = some ⟨frames, .char c :: content, .content⟩ := by
  obtain ⟨hplain, heq⟩ | ⟨body, heq, hbody⟩ := Entity.encodeChar_cases c
  · obtain ⟨hopen, hclose⟩ := Entity.ne_of_isPlain hplain
    obtain ⟨-, hamp⟩ := Entity.isPrintable_of_isPlain hplain
    rw [heq]
    simp [run, step, push, hopen, hclose, hamp]
  · rw [heq]
    exact run_entity hbody

/-- **Character data is read back as its text.** -/
theorem run_encode (cs : List Char) :
    run ⟨frames, content, .content⟩ (Entity.encode cs)
      = some ⟨frames, (cs.map Node.char).reverse ++ content, .content⟩ := by
  induction cs generalizing content with
  | nil => rfl
  | cons c cs ih =>
    rw [Entity.encode_cons, run_append (run_encodeChar c), ih]
    simp

end Content

/-! ### Marks -/

/-- A character of a name means nothing else in a mark. -/
theorem ne_of_isNameChar {c : Char} (h : Entity.isNameChar c = true) :
    c ≠ '<' ∧ c ≠ '>' ∧ c ≠ ' ' ∧ c ≠ '/' ∧ c ≠ '=' ∧ c ≠ '\x27' := by
  refine ⟨?_, ?_, ?_, ?_, ?_, ?_⟩ <;> rintro rfl <;> exact absurd h (by decide)

section Marks

open Reader

variable {r : Reader}

theorem run_name {name : String} (h : Entity.IsName name) :
    run (r.goTo (.mark [])) name.toList = some (r.goTo (.mark name.toList.reverse)) := by
  have htaking := run_taking r .mark name.toList (fun taken c hc => ?_) []
  · rwa [List.append_nil] at htaking
  · obtain ⟨hopen, hclose, hspace, -⟩ := ne_of_isNameChar (List.all_eq_true.1 h c hc)
    simp [step, goTo, hopen, hclose, hspace]

theorem attributeText_eq (a : String × String) :
    attributeText a = ' ' :: (a.1.toList ++ '=' :: '\x27' :: a.2.toList ++ ['\x27']) := rfl

/-- **An attribute is read** in a mark. -/
theorem run_attribute {name key value : String} (hkey : Entity.IsName key)
    (hvalue : Entity.Plain value) (given : List (String × String)) :
    run (r.goTo (.key name given [])) (key.toList ++ '=' :: '\x27' :: value.toList ++ ['\x27'])
      = some (r.goTo (.afterValue name (given ++ [(key, value)]))) := by
  have htakeKey : run (r.goTo (.key name given [])) key.toList
      = some (r.goTo (.key name given key.toList.reverse)) := by
    have htaking := run_taking r (.key name given) key.toList (fun taken c hc => ?_) []
    · rwa [List.append_nil] at htaking
    · obtain ⟨hopen, hclose, -, -, -, hquote⟩ := ne_of_isNameChar (List.all_eq_true.1 hkey c hc)
      simp [step, goTo, hopen, hclose, hquote]
  have htakeValue : run (r.goTo (.value name given key [])) value.toList
      = some (r.goTo (.value name given key value.toList.reverse)) := by
    have htaking := run_taking r (.value name given key) value.toList
      (fun taken c hc => ?_) []
    · rwa [List.append_nil] at htaking
    · have hplain := List.all_eq_true.1 hvalue c hc
      have hquote : c ≠ '\x27' := by
        rintro rfl
        exact absurd hplain (by decide)
      simp [step, goTo, (Entity.ne_of_isPlain hplain).1, hquote]
  have hequals : step (r.goTo (.key name given key.toList.reverse)) '='
      = some (r.goTo (.key name given ('=' :: key.toList.reverse))) := by simp [step, goTo]
  have hquote : step (r.goTo (.key name given ('=' :: key.toList.reverse))) '\x27'
      = some (r.goTo (.value name given key [])) := by simp [step, goTo]
  rw [List.append_assoc, run_append htakeKey, List.cons_append, List.cons_append,
    run_cons hequals, run_cons hquote, run_append htakeValue]
  simp [run, step, goTo]

theorem run_attributes {name : String} {attributes : List (String × String)}
    (h : ∀ a ∈ attributes, Entity.IsName a.1 ∧ Entity.Plain a.2)
    (given : List (String × String)) :
    run (r.goTo (.afterValue name given)) (attributes.flatMap attributeText)
      = some (r.goTo (.afterValue name (given ++ attributes))) := by
  induction attributes generalizing given with
  | nil => rw [List.append_nil]; rfl
  | cons a attributes ih =>
    obtain ⟨⟨hkey, hvalue⟩, hattributes⟩ := List.forall_mem_cons.1 h
    have hspace : step (r.goTo (.afterValue name given)) ' '
        = some (r.goTo (.key name given [])) := by simp [step, goTo]
    rw [List.flatMap_cons, attributeText_eq, List.cons_append, run_cons hspace,
      run_append (run_attribute hkey hvalue given), ih hattributes]
    simp

/-- **A mark that opens an element opens it.** -/
theorem run_openMark {name : String} {attributes : List (String × String)}
    (h : PlainMark name attributes) (hplace : r.place = .content) :
    run r (openMark name attributes) = some (r.enter name attributes) := by
  have hmark : r.step '<' = some (r.goTo (.mark [])) := by simp [step, hplace]
  rw [openMark, List.append_assoc, List.cons_append, run_cons hmark, run_append (run_name h.1)]
  cases attributes with
  | nil =>
    -- the name is followed by the end of the mark, and does not start with a slash
    have hname : ∀ rest, name.toList ≠ '/' :: rest := by
      intro rest heq
      have hslash := List.all_eq_true.1 h.1 '/' (by simp [heq])
      exact absurd rfl (ne_of_isNameChar hslash).2.2.2.1
    have hclose : step (r.goTo (.mark name.toList.reverse)) '>' = some (r.enter name []) := by
      simp [step, goTo, enter]
    rw [List.flatMap_nil, List.nil_append, run_cons hclose]
    rfl
  | cons a attributes =>
    obtain ⟨⟨hkey, hvalue⟩, hattributes⟩ := List.forall_mem_cons.1 h.2
    have hspace : step (r.goTo (.mark name.toList.reverse)) ' '
        = some (r.goTo (.key name [] [])) := by simp [step, goTo]
    rw [List.flatMap_cons, attributeText_eq, List.append_assoc, List.cons_append,
      run_cons hspace, run_append (run_attribute hkey hvalue []),
      run_append (run_attributes hattributes _)]
    simp [run, step, goTo, enter]

/-- **A mark that closes an element closes it**, if it is the innermost one. -/
theorem run_closeMark {name : String} {attributes : List (String × String)}
    (h : PlainMark name attributes) {frames : List OpenElement} {before content : List Node} :
    run ⟨⟨name, attributes, before⟩ :: frames, content, .content⟩ (closeMark name)
      = some ⟨frames, .element name attributes content.reverse :: before, .content⟩ := by
  let inside : Reader := ⟨⟨name, attributes, before⟩ :: frames, content, .content⟩
  have hmark : step inside '<' = some (inside.goTo (.mark [])) := by simp [step, inside]
  have hslash : step (inside.goTo (.mark [])) '/' = some (inside.goTo (.mark ['/'])) := by
    simp [step, goTo]
  have htaking := run_taking inside .mark name.toList (fun taken c hc => ?_) ['/']
  · rw [closeMark, List.cons_append, List.cons_append, run_cons hmark, run_cons hslash,
      run_append htaking]
    simp [run, step, goTo, leave, inside]
  · obtain ⟨hopen, hclose, hspace, -⟩ := ne_of_isNameChar (List.all_eq_true.1 h.1 c hc)
    simp [step, goTo, hopen, hclose, hspace]

end Marks

/-! ### Tame markup -/

open Reader

theorem run_renderAll {pieces : List Markup}
    (h : ∀ m ∈ pieces, ∀ frames content, run ⟨frames, content, .content⟩ m.render
      = some ⟨frames, m.nodes.reverse ++ content, .content⟩)
    (frames : List OpenElement) (content : List Node) :
    run ⟨frames, content, .content⟩ (renderAll pieces)
      = some ⟨frames, (nodesAll pieces).reverse ++ content, .content⟩ := by
  induction pieces generalizing content with
  | nil => rfl
  | cons m rest ih =>
    obtain ⟨hm, hrest⟩ := List.forall_mem_cons.1 h
    rw [renderAll, run_append (hm frames content), ih hrest, nodesAll, List.reverse_append,
      List.append_assoc]

/-- **Tame markup is read as its nodes**, wherever it stands. -/
theorem Tame.run_render {m : Markup} (h : m.Tame) (frames : List OpenElement)
    (content : List Node) :
    run ⟨frames, content, .content⟩ m.render
      = some ⟨frames, m.nodes.reverse ++ content, .content⟩ := by
  induction h generalizing frames content with
  | text text => exact run_encode text.toList
  | space => exact @run_entity _ _ ['n', 'b', 's', 'p'] _ rfl
  | element hmark _ ih =>
    rw [render, List.append_assoc, run_append (run_openMark hmark rfl), enter,
      run_append (run_renderAll ih _ _), run_closeMark hmark]
    simp [nodes]

/-- **What tame markup is written as is read back.** -/
theorem Tame.read?_render {m : Markup} (h : m.Tame) : read? m.render = some m.nodes := by
  rw [read?, start, h.run_render]
  simp [result?]

/-- An element is not closed before those in it. -/
example : read? "<tr><td></tr></td>".toList = none := rfl

/-! ## Encoded markup -/

/-- A plain mark is encoded. -/
theorem PlainMark.encoded_openMark {name : String} {attributes : List (String × String)}
    (h : PlainMark name attributes) : Entity.Encoded (openMark name attributes) := by
  refine .of_forall fun c hc => ?_
  rw [openMark, List.cons_append, List.cons_append, List.mem_cons, List.mem_append,
    List.mem_singleton] at hc
  obtain rfl | hc | rfl := hc
  · decide
  · obtain rfl | hplain := h.mem hc
    · decide
    · exact Entity.isPrintable_of_isPlain hplain
  · decide

theorem PlainMark.encoded_closeMark {name : String} {attributes : List (String × String)}
    (h : PlainMark name attributes) : Entity.Encoded (closeMark name) := by
  refine .of_forall fun c hc => ?_
  rw [closeMark, List.cons_append, List.cons_append, List.mem_cons, List.mem_cons,
    List.mem_append, List.mem_singleton] at hc
  obtain rfl | rfl | hc | rfl := hc
  · decide
  · decide
  · exact Entity.isPrintable_of_isPlain (List.all_eq_true.1 h.1.plain c hc)
  · decide

/-- **Tame markup is encoded.** -/
theorem Tame.encoded_render {m : Markup} (h : m.Tame) : Entity.Encoded m.render :=
  h.render_induction .nil .append Entity.encoded_encode
    (@Entity.Encoded.entity ['n', 'b', 's', 'p'] [] _ rfl .nil)
    (fun hmark => hmark.encoded_openMark) fun hmark => hmark.encoded_closeMark

end TypeAtlas.Markup

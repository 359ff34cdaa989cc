import Mathlib.Data.List.Forall2
import TypeAtlas.Json.Reader
import TypeAtlas.Proofs.JsonToken

/-!
# The grammar of documents

`Document` says when a text is JSON and which value it has, without a reader: the text is
written as tokens, and the tokens are a value, a bracketed list of values or a braced list
of keys and values. A document has two bounds that are bounds of the format as it is read
here: at most `Reader.depthLimit` lists and maps stand inside one another, and its numbers
are in range.

The reader goes through the tokens once and keeps the open lists and maps. For what it
finds, `Around` says which tokens have opened them, `Reached` the same of each place the
reader may have come to, and one step keeps it so (`Reached.step`). In the other
direction, the tokens of a value take the reader from before the value to behind it
(`Phrase.run`). Both together make reading and the grammar the same
(`read?_eq_some_iff`).
-/

namespace TypeAtlas.Json

/-! ## The grammar -/

/-- Sequences of tokens with commas between them. -/
def commas : List (List Token) → List Token
  | [] => []
  | ts :: tss => ts ++ tss.flatMap (.comma :: ·)

/-- **The tokens of an entry** of a map: its key, a colon, and its value. -/
def EntryTokens (Inner : Data → List Token → Prop) (entry : String × Data)
    (ts : List Token) : Prop :=
  ∃ value, ts = .atom (.text entry.1) :: .colon :: value ∧ Inner entry.2 value

theorem EntryTokens.imp {Inner Other : Data → List Token → Prop}
    (h : ∀ value ts, Inner value ts → Other value ts) {entry : String × Data} {ts : List Token} :
    EntryTokens Inner entry ts → EntryTokens Other entry ts :=
  fun ⟨value, hts, hvalue⟩ => ⟨value, hts, h _ _ hvalue⟩

/-- **The tokens of a value**, given those of the values inside it. -/
inductive Nested (Inner : Data → List Token → Prop) : Data → List Token → Prop
  /-- A value without parts is a token. -/
  | atom (value : Data) : Nested Inner value [.atom value]
  /-- A list is its items between brackets. -/
  | list {items : List Data} {tss : List (List Token)} (h : List.Forall₂ Inner items tss) :
      Nested Inner (.list items) (.openList :: (commas tss ++ [.closeList]))
  /-- A map is its entries between braces; of two entries with the same key the later one
  stays. -/
  | map {entries : List (String × Data)} {tss : List (List Token)}
      (h : List.Forall₂ (EntryTokens Inner) entries tss) :
      Nested Inner (.map (Entries.ofList entries)) (.openMap :: (commas tss ++ [.closeMap]))

/-- **The tokens of a value** with at most a number of lists and maps inside one another. -/
def Phrase : Nat → Data → List Token → Prop
  | 0 => fun value ts => ts = [.atom value]
  | n + 1 => Nested (Phrase n)

/-- **A document** and its value. -/
def Document (value : Data) (text : String) : Prop :=
  ∃ ts, Lexes ts text.toList ∧ Phrase Reader.depthLimit value ts

/-- **The texts that are JSON.** -/
def IsJson (text : String) : Prop := ∃ value, Document value text

theorem Phrase.of_atom (n : Nat) (value : Data) : Phrase n value [.atom value] := by
  cases n with
  | zero => rfl
  | succ n => exact Nested.atom value

/-- The last sequence comes after the others and their commas. -/
theorem commas_concat (tss : List (List Token)) (last : List Token) :
    commas (tss ++ [last]) = tss.flatMap (· ++ [.comma]) ++ last := by
  induction tss with
  | nil => simp [commas]
  | cons ts tss ih =>
    cases tss with
    | nil => simp [commas]
    | cons next tss =>
      have hcons : commas (ts :: (next :: tss ++ [last]))
          = ts ++ [.comma] ++ commas (next :: tss ++ [last]) := by
        simp [commas]
      rw [List.cons_append, hcons, ih]
      simp

/-- The reader after a sequence of tokens. -/
def Reader.run (r : Reader) (ts : List Token) : Option Reader := ts.foldlM Reader.step r

/-! ## What is read is a document -/

/-- **Tokens that open lists and maps.** After them a value is to come, inside the open
lists and maps of the frames, and a number of lists and maps may still be opened. -/
inductive Around : Nat → List Frame → List Token → Prop
  /-- Nothing is open. -/
  | nil : Around Reader.depthLimit [] []
  /-- A list is open and has some items. -/
  | list {n : Nat} {outer : List Frame} {ts : List Token} {items : List Data}
      {tss : List (List Token)} (h : Around (n + 1) outer ts)
      (hitems : List.Forall₂ (Phrase n) items tss) :
      Around n (.list items.reverse :: outer)
        (ts ++ .openList :: tss.flatMap (· ++ [.comma]))
  /-- A map is open, has some entries and the key of the value that is to come. -/
  | map {n : Nat} {outer : List Frame} {ts : List Token} {entries : List (String × Data)}
      {tss : List (List Token)} (h : Around (n + 1) outer ts)
      (hentries : List.Forall₂ (EntryTokens (Phrase n)) entries tss) (key : String) :
      Around n (.map (Entries.ofList entries) key :: outer)
        (ts ++ .openMap :: (tss.flatMap (· ++ [.comma]) ++ [.atom (.text key), .colon]))

/-- **The tokens before a place** that the reader has come to. -/
inductive Reached : Reader → List Token → Prop
  | value {n : Nat} {frames : List Frame} {ts : List Token} (h : Around n frames ts) :
      Reached ⟨frames, .value⟩ ts
  | firstItem {n : Nat} {outer : List Frame} {ts : List Token} (h : Around (n + 1) outer ts) :
      Reached ⟨.list [] :: outer, .firstItem⟩ (ts ++ [.openList])
  | firstKey {n : Nat} {frames : List Frame} {ts : List Token} (h : Around (n + 1) frames ts) :
      Reached ⟨frames, .firstKey⟩ (ts ++ [.openMap])
  | key {n : Nat} {frames : List Frame} {ts : List Token} {entries : List (String × Data)}
      {tss : List (List Token)} (h : Around (n + 1) frames ts)
      (hentries : List.Forall₂ (EntryTokens (Phrase n)) entries tss) :
      Reached ⟨frames, .key (Entries.ofList entries)⟩
        (ts ++ .openMap :: tss.flatMap (· ++ [.comma]))
  | colon {n : Nat} {frames : List Frame} {ts : List Token} {entries : List (String × Data)}
      {tss : List (List Token)} (h : Around (n + 1) frames ts)
      (hentries : List.Forall₂ (EntryTokens (Phrase n)) entries tss) (key : String) :
      Reached ⟨frames, .colon (Entries.ofList entries) key⟩
        (ts ++ .openMap :: (tss.flatMap (· ++ [.comma]) ++ [.atom (.text key)]))
  | finished {n : Nat} {frames : List Frame} {before ts : List Token} {value : Data}
      (h : Around n frames before) (hvalue : Phrase n value ts) :
      Reached ⟨frames, .finished value⟩ (before ++ ts)

/-- As many lists and maps may still be opened as the open ones leave. -/
theorem Around.depth {n : Nat} {frames : List Frame} {ts : List Token}
    (h : Around n frames ts) : n + frames.length = Reader.depthLimit := by
  induction h with
  | nil => rfl
  | list _ _ ih | map _ _ _ ih => rw [← ih, List.length_cons]; omega

/-- A token where a value is to come. -/
theorem Around.beginValue {n : Nat} {frames : List Frame} {ts : List Token} {token : Token}
    {next : Reader} (h : Around n frames ts)
    (hstep : Reader.beginValue frames token = some next) : Reached next (ts ++ [token]) := by
  have hdepth := h.depth
  unfold Reader.beginValue at hstep
  split at hstep
  · next value =>
    obtain rfl := Option.some.inj hstep
    exact .finished h (Phrase.of_atom n value)
  · split at hstep
    · next hlt =>
      obtain rfl := Option.some.inj hstep
      obtain ⟨m, rfl⟩ := Nat.exists_eq_succ_of_ne_zero (n := n) (by omega)
      exact .firstItem h
    · cases hstep
  · split at hstep
    · next hlt =>
      obtain rfl := Option.some.inj hstep
      obtain ⟨m, rfl⟩ := Nat.exists_eq_succ_of_ne_zero (n := n) (by omega)
      exact .firstKey h
    · cases hstep
  · cases hstep

/-- A token after a value. -/
theorem Around.afterValue {n : Nat} {frames : List Frame} {before ts : List Token}
    {value : Data} {token : Token} {next : Reader} (h : Around n frames before)
    (hvalue : Phrase n value ts) (hstep : Reader.afterValue frames value token = some next) :
    Reached next (before ++ ts ++ [token]) := by
  cases h with
  | nil => cases hstep
  | @list _ outer ts' items tss houter hitems =>
    have hmore : List.Forall₂ (Phrase n) (items ++ [value]) (tss ++ [ts]) :=
      List.rel_append hitems (.cons hvalue .nil)
    cases token with
    | comma =>
      obtain rfl := Option.some.inj hstep
      simpa using Reached.value (Around.list houter hmore)
    | closeList =>
      obtain rfl := Option.some.inj hstep
      have hlist : Phrase (n + 1) (.list (items ++ [value]))
          (.openList :: (commas (tss ++ [ts]) ++ [.closeList])) := Nested.list hmore
      rw [commas_concat] at hlist
      simpa using Reached.finished houter hlist
    | _ => cases hstep
  | @map _ outer ts' entries tss houter hentries key =>
    have hmore : List.Forall₂ (EntryTokens (Phrase n)) (entries ++ [(key, value)])
        (tss ++ [.atom (.text key) :: .colon :: ts]) :=
      List.rel_append hentries (.cons ⟨ts, rfl, hvalue⟩ .nil)
    have hset : Entries.ofList (entries ++ [(key, value)])
        = Entries.set key value (Entries.ofList entries) := by
      simp [Entries.ofList]
    cases token with
    | comma =>
      obtain rfl := Option.some.inj hstep
      simpa [hset] using Reached.key houter hmore
    | closeMap =>
      obtain rfl := Option.some.inj hstep
      have hmap : Phrase (n + 1) (.map (Entries.ofList (entries ++ [(key, value)])))
          (.openMap :: (commas (tss ++ [.atom (.text key) :: .colon :: ts]) ++ [.closeMap])) :=
        Nested.map hmore
      rw [commas_concat] at hmap
      simpa [hset] using Reached.finished houter hmap
    | _ => cases hstep

/-- **One step of the reader** takes in one more token. -/
theorem Reached.step {r next : Reader} {ts : List Token} {token : Token} (h : Reached r ts)
    (hstep : r.step token = some next) : Reached next (ts ++ [token]) := by
  cases h with
  | value haround => exact haround.beginValue hstep
  | @firstItem n outer ts haround =>
    -- a bracket closes the empty list, and any other token begins its first item
    have hopened : Around n (.list [] :: outer) (ts ++ [.openList]) := .list haround .nil
    cases token with
    | closeList =>
      obtain rfl := Option.some.inj hstep
      have hlist : Phrase (n + 1) (.list []) [.openList, .closeList] := Nested.list .nil
      simpa using Reached.finished haround hlist
    | _ => exact hopened.beginValue hstep
  | @firstKey n frames ts haround =>
    cases token with
    | closeMap =>
      obtain rfl := Option.some.inj hstep
      have hmap : Phrase (n + 1) (.map []) [.openMap, .closeMap] := Nested.map .nil
      simpa using Reached.finished haround hmap
    | atom value =>
      cases value with
      | text key =>
        obtain rfl := Option.some.inj hstep
        simpa [Entries.ofList] using Reached.colon haround .nil key
      | _ => cases hstep
    | _ => cases hstep
  | @key n frames ts entries tss haround hentries =>
    cases token with
    | atom value =>
      cases value with
      | text key =>
        obtain rfl := Option.some.inj hstep
        simpa using Reached.colon haround hentries key
      | _ => cases hstep
    | _ => cases hstep
  | @colon n frames ts entries tss haround hentries key =>
    cases token with
    | colon =>
      obtain rfl := Option.some.inj hstep
      simpa using Reached.value (Around.map haround hentries key)
    | _ => cases hstep
  | finished haround hvalue => exact haround.afterValue hvalue hstep

/-- **The run of the reader** takes in the tokens it goes through. -/
theorem Reached.run {r last : Reader} {ts more : List Token} (h : Reached r ts)
    (hrun : r.run more = some last) : Reached last (ts ++ more) := by
  induction more generalizing r ts with
  | nil =>
    obtain rfl := Option.some.inj hrun
    rwa [List.append_nil]
  | cons token more ih =>
    obtain ⟨next, hstep, hrest⟩ := Option.bind_eq_some_iff.1 hrun
    simpa using ih (h.step hstep) hrest

/-- **What is read is a document** with the value it is read as. -/
theorem document_of_read? {text : String} {value : Data} (h : read? text = some value) :
    Document value text := by
  obtain ⟨ts, htokens, hrest⟩ := Option.bind_eq_some_iff.1 h
  obtain ⟨last, hrun, hresult⟩ := Option.bind_eq_some_iff.1 hrest
  have hreached : Reached last ts := Reached.run (.value .nil) hrun
  -- a reader has a result only behind a value around which nothing is open
  refine ⟨ts, lexes_of_tokens htokens, ?_⟩
  cases hreached with
  | @finished n frames before ts value' haround hvalue =>
    cases haround with
    | nil =>
      obtain rfl := Option.some.inj hresult
      exact hvalue
    | list _ _ | map _ _ _ => cases hresult
  | value _ | firstItem _ | firstKey _ | key _ _ | colon _ _ _ =>
    simp [Reader.result?] at hresult

/-! ## A document is read -/

theorem Reader.run_cons {r next : Reader} {token : Token} (h : r.step token = some next)
    (more : List Token) : r.run (token :: more) = next.run more := by
  rw [run, List.foldlM_cons, h]
  rfl

theorem Reader.run_append {r next : Reader} {ts : List Token} (h : r.run ts = some next)
    (more : List Token) : r.run (ts ++ more) = next.run more := by
  rw [run] at h
  rw [run, List.foldlM_append, h]
  rfl

/-- **A value that is read**: its tokens take the reader from before it to behind it, where
enough lists and maps may still be opened. A value may also be the first item of a list. -/
def Runs (n : Nat) (value : Data) (ts : List Token) : Prop :=
  ∀ (frames : List Frame) (phase : Phase), frames.length + n ≤ Reader.depthLimit →
    phase = .value ∨ phase = .firstItem →
    Reader.run ⟨frames, phase⟩ ts = some ⟨frames, .finished value⟩

/-- A token that is no closing bracket begins the first item of a list like any value. -/
theorem step_eq_beginValue {frames : List Frame} {phase : Phase} {token : Token}
    (hphase : phase = .value ∨ phase = .firstItem) (hclose : token ≠ .closeList) :
    Reader.step ⟨frames, phase⟩ token = Reader.beginValue frames token := by
  rcases hphase with rfl | rfl
  · rfl
  · cases token with
    | closeList => exact absurd rfl hclose
    | _ => rfl

theorem step_openList {frames : List Frame} {phase : Phase}
    (hphase : phase = .value ∨ phase = .firstItem) (hlt : frames.length < Reader.depthLimit) :
    Reader.step ⟨frames, phase⟩ .openList = some ⟨.list [] :: frames, .firstItem⟩ := by
  rw [step_eq_beginValue hphase (by simp), Reader.beginValue, if_pos hlt]

theorem step_openMap {frames : List Frame} {phase : Phase}
    (hphase : phase = .value ∨ phase = .firstItem) (hlt : frames.length < Reader.depthLimit) :
    Reader.step ⟨frames, phase⟩ .openMap = some ⟨frames, .firstKey⟩ := by
  rw [step_eq_beginValue hphase (by simp), Reader.beginValue, if_pos hlt]

/-- A value without parts is read. -/
theorem runs_atom (n : Nat) (value : Data) : Runs n value [.atom value] :=
  fun _ _ _ hphase => Reader.run_cons (step_eq_beginValue hphase (by simp)) []

/-- The items after a finished one and the closing bracket. -/
theorem run_items {n : Nat} {outer : List Frame} {items : List Data} {tss : List (List Token)}
    (h : List.Forall₂ (Runs n) items tss) (hdepth : outer.length + 1 + n ≤ Reader.depthLimit)
    (before : List Data) (value : Data) :
    Reader.run ⟨.list before :: outer, .finished value⟩
        (tss.flatMap (.comma :: ·) ++ [.closeList])
      = some ⟨outer, .finished (.list (before.reverse ++ value :: items))⟩ := by
  induction h generalizing before value with
  | nil => simp [Reader.run, Reader.step, Reader.afterValue]
  | @cons item ts items tss hitem _ ih =>
    rw [List.flatMap_cons, List.cons_append, List.cons_append, Reader.run_cons rfl,
      List.append_assoc, Reader.run_append (hitem (.list _ :: outer) _ hdepth (.inl rfl)), ih]
    simp

/-- The entries after a finished one and the closing brace. -/
theorem run_entries {n : Nat} {outer : List Frame} {entries : List (String × Data)}
    {tss : List (List Token)} (h : List.Forall₂ (EntryTokens (Runs n)) entries tss)
    (hdepth : outer.length + 1 + n ≤ Reader.depthLimit)
    (before : List (String × Data)) (key : String) (value : Data) :
    Reader.run ⟨.map before key :: outer, .finished value⟩
        (tss.flatMap (.comma :: ·) ++ [.closeMap])
      = some ⟨outer, .finished (.map (entries.foldl
          (fun arranged entry => Entries.set entry.1 entry.2 arranged)
          (Entries.set key value before)))⟩ := by
  induction h generalizing before key value with
  | nil => rfl
  | @cons entry ts entries tss hentry _ ih =>
    obtain ⟨tokens, rfl, hvalue⟩ := hentry
    rw [List.flatMap_cons, List.cons_append, List.cons_append, Reader.run_cons rfl,
      List.append_assoc, List.cons_append, Reader.run_cons rfl, List.cons_append,
      Reader.run_cons rfl, Reader.run_append (hvalue (.map _ _ :: outer) _ hdepth (.inl rfl)), ih]
    rfl

/-- **The tokens of a value are read** as the value. -/
theorem Phrase.runs {n : Nat} {value : Data} {ts : List Token} (h : Phrase n value ts) :
    Runs n value ts := by
  induction n generalizing value ts with
  | zero =>
    obtain rfl : ts = [.atom value] := h
    exact runs_atom 0 value
  | succ n ih =>
    cases h with
    | atom => exact runs_atom (n + 1) value
    | list h =>
      intro frames phase hdepth hphase
      have hinner : frames.length + 1 + n ≤ Reader.depthLimit := by omega
      rw [Reader.run_cons (step_openList hphase (by omega))]
      cases h with
      | nil => rfl
      | cons hitem hitems =>
        rw [commas, List.append_assoc,
          Reader.run_append (ih hitem (.list [] :: frames) _ hinner (.inr rfl)),
          run_items (hitems.imp fun _ _ => ih) hinner]
        rfl
    | map h =>
      intro frames phase hdepth hphase
      have hinner : frames.length + 1 + n ≤ Reader.depthLimit := by omega
      have hruns := h.imp fun _ _ => EntryTokens.imp fun _ _ => ih
      rw [Reader.run_cons (step_openMap hphase (by omega))]
      cases hruns with
      | nil => rfl
      | cons hentry hentries =>
        obtain ⟨tokens, rfl, hvalue⟩ := hentry
        rw [commas, List.append_assoc, List.cons_append, Reader.run_cons rfl, List.cons_append,
          Reader.run_cons rfl, Reader.run_append (hvalue (.map [] _ :: frames) _ hinner (.inl rfl)),
          run_entries hentries hinner]
        rfl

/-- After a token with a value the reader takes no other. -/
theorem step_atom_atom {r next : Reader} {x y : Data} (h : r.step (.atom x) = some next) :
    next.step (.atom y) = none := by
  obtain ⟨frames, phase⟩ := r
  have hafter : Reader.step ⟨frames, .finished x⟩ (.atom y) = none := by
    cases frames with
    | nil => rfl
    | cons frame frames => cases frame <;> rfl
  cases phase with
  | value | firstItem =>
    obtain rfl := Option.some.inj h
    exact hafter
  | firstKey | key =>
    cases x with
    | text key =>
      obtain rfl := Option.some.inj h
      rfl
    | _ => cases h
  | colon => cases h
  | finished value =>
    cases frames with
    | nil => cases h
    | cons frame frames => cases frame <;> cases h

/-- The reader never takes two values side by side. -/
theorem isChain_of_run {r last : Reader} {ts : List Token} (h : r.run ts = some last) :
    ts.IsChain Apart := by
  induction ts generalizing r with
  | nil => exact .nil
  | cons token ts ih =>
    obtain ⟨next, hstep, hrest⟩ := Option.bind_eq_some_iff.1 h
    refine List.isChain_cons.2 ⟨fun other hother x y => ?_, ih hrest⟩
    rintro ⟨rfl, rfl⟩
    obtain ⟨ts, rfl⟩ := List.head?_eq_some_iff.1 hother
    obtain ⟨last', hlast, -⟩ := Option.bind_eq_some_iff.1 hrest
    rw [step_atom_atom hstep] at hlast
    cases hlast

/-- **Reading a document and its grammar are the same.** -/
theorem read?_eq_some_iff {text : String} {value : Data} :
    read? text = some value ↔ Document value text := by
  refine ⟨document_of_read?, fun ⟨ts, hlexes, hphrase⟩ => ?_⟩
  have hrun : Reader.start.run ts = some ⟨[], .finished value⟩ :=
    hphrase.runs [] .value (by simp) (.inl rfl)
  rw [Reader.run] at hrun
  rw [read?, tokens_of_lexes hlexes (isChain_of_run hrun), Option.bind_eq_bind,
    Option.bind_some, hrun]
  rfl

/-- **A text is at most one document.** -/
theorem Document.unique {text : String} {value other : Data} (h : Document value text)
    (hother : Document other text) : value = other :=
  Option.some.inj ((read?_eq_some_iff.2 h).symm.trans (read?_eq_some_iff.2 hother))

/-- A text is refused exactly if it is not JSON. -/
theorem read?_eq_none_iff {text : String} : read? text = none ↔ ¬ IsJson text := by
  simp only [Option.eq_none_iff_forall_ne_some, ne_eq, read?_eq_some_iff, IsJson, not_exists]

/-- **The keys of a map that is a document are ascending.** -/
theorem Document.pairwise_entries {text : String} {entries : List (String × Data)}
    (h : Document (.map entries) text) : entries.Pairwise fun a b => a.1 < b.1 := by
  obtain ⟨ts, hlexes, hphrase⟩ := h
  generalize text.toList = cs at hlexes
  have hnested : Nested (Phrase (Reader.depthLimit - 1)) (.map entries) ts := hphrase
  cases hnested with
  | atom =>
    cases hlexes with
    | cons _ hw _ => exact absurd hw TokenSpelling.not_map
  | map _ => exact Entries.pairwise_ofList _

end TypeAtlas.Json

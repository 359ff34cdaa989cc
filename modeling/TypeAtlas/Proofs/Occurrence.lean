import TypeAtlas.Proofs.Reference

/-!
# The names of a signature are its longest dotted names

A signature is read once from left to right, and each name is taken as long as it can be.
What is found in this way can be said without a reading: a dotted name that occurs at some
place of the text, and is not part of a longer one that occurs there
(`Signature.Occurrence.IsMaximal`). The reading finds each such occurrence and no other
(`Signature.exists_occurrences`).

The reason is that dotted names do not overlap without being one. A dotted name is a start of
an identifier and characters that *go on* with it, and each of its characters but the first
does so whatever is before it (`Signature.Continues.goesOn`). So where the reading ends a
name because the text does not go on, no dotted name reaches over that place at all
(`Signature.apart_of_not_goesOn`), and the next one starts later.
-/

namespace TypeAtlas.Signature

/-! ## How dotted names go on -/

/-- **A text goes on with a name** that ends before it: with a part of an identifier, or with
a dot and the start of one. -/
inductive GoesOn : List Char → Prop
  /-- A part of an identifier. -/
  | part {c : Char} {rest : List Char} (h : isPart c = true) : GoesOn (c :: rest)
  /-- A dot and the start of an identifier. -/
  | dot {c : Char} {rest : List Char} (h : isStart c = true) : GoesOn ('.' :: c :: rest)

/-- **The rest of a dotted name**, once some of it has been read. -/
inductive Continues : List Char → Prop
  /-- Nothing more. -/
  | nil : Continues []
  /-- A part of an identifier. -/
  | part {c : Char} {rest : List Char} (h : isPart c = true) (hrest : Continues rest) :
    Continues (c :: rest)
  /-- A dot and the start of an identifier. -/
  | dot {c : Char} {rest : List Char} (h : isStart c = true) (hrest : Continues rest) :
    Continues ('.' :: c :: rest)

theorem isPart_of_isStart {c : Char} (h : isStart c = true) : isPart c = true := by
  simp [isPart, h]

theorem GoesOn.append {cs : List Char} (h : GoesOn cs) (ds : List Char) : GoesOn (cs ++ ds) := by
  cases h with
  | part h => exact .part h
  | dot h => exact .dot h

theorem continues_of_parts {cs : List Char} (h : ∀ c ∈ cs, isPart c = true) : Continues cs := by
  induction cs with
  | nil => exact .nil
  | cons c cs ih =>
    obtain ⟨hc, hcs⟩ := List.forall_mem_cons.1 h
    exact .part hc (ih hcs)

theorem Continues.append {cs ds : List Char} (hcs : Continues cs) (hds : Continues ds) :
    Continues (cs ++ ds) := by
  induction hcs with
  | nil => exact hds
  | part h _ ih => exact .part h ih
  | dot h _ ih => exact .dot h ih

/-- **Each end of a dotted name goes on**, wherever it is cut off. -/
theorem Continues.goesOn {front back : List Char} (h : Continues (front ++ back))
    (hback : back ≠ []) : GoesOn back := by
  generalize hcs : front ++ back = cs at h
  induction h generalizing front with
  | nil => exact absurd (List.append_eq_nil_iff.1 hcs).2 hback
  | @part c rest hpart _ ih =>
    cases front with
    | nil =>
      rw [List.nil_append] at hcs
      exact hcs ▸ .part hpart
    | cons d front => exact ih (List.cons.inj hcs).2
  | @dot c rest hstart _ ih =>
    -- the cut may fall between the dot and the identifier after it
    match front with
    | [] =>
      rw [List.nil_append] at hcs
      exact hcs ▸ .dot hstart
    | [d] =>
      obtain rfl : back = c :: rest := (List.cons.inj hcs).2
      exact .part (isPart_of_isStart hstart)
    | d :: e :: front => exact ih (List.cons.inj (List.cons.inj hcs).2).2

theorem IsDotted.concat {cs : List Char} (h : IsDotted cs) {c : Char} (hc : isPart c = true) :
    IsDotted (cs ++ [c]) := by
  have hidentifier : ∀ {ds}, IsIdentifier ds → IsIdentifier (ds ++ [c]) := by
    rintro _ ⟨d, parts, rfl, hd, hparts⟩
    refine ⟨d, parts ++ [c], rfl, hd, List.forall_mem_append.2 ⟨hparts, ?_⟩⟩
    exact List.forall_mem_singleton.2 hc
  cases h with
  | identifier h => exact .identifier (hidentifier h)
  | dot hfront hlast =>
    rw [List.append_assoc, List.cons_append]
    exact .dot hfront (hidentifier hlast)

/-- **A dotted name and what continues it are one dotted name.** -/
theorem IsDotted.append {cs ds : List Char} (h : IsDotted cs) (hds : Continues ds) :
    IsDotted (cs ++ ds) := by
  induction hds generalizing cs with
  | nil => rwa [List.append_nil]
  | @part c rest hpart _ ih =>
    have hlonger := ih (h.concat hpart)
    rwa [List.append_assoc, List.singleton_append] at hlonger
  | @dot c rest hstart _ ih =>
    have hlonger := ih (h.dot ⟨c, [], rfl, hstart, by simp⟩)
    rwa [List.append_assoc, List.cons_append, List.singleton_append] at hlonger

/-- **A dotted name is a start and a rest**: the start of an identifier, and characters that
continue a name. -/
theorem isDotted_iff {cs : List Char} :
    IsDotted cs ↔ ∃ c rest, cs = c :: rest ∧ isStart c = true ∧ Continues rest := by
  constructor
  · intro h
    induction h with
    | identifier h =>
      obtain ⟨c, parts, rfl, hc, hparts⟩ := h
      exact ⟨c, parts, rfl, hc, continues_of_parts hparts⟩
    | dot _ hlast ih =>
      obtain ⟨c, rest, rfl, hc, hrest⟩ := ih
      obtain ⟨d, parts, rfl, hd, hparts⟩ := hlast
      exact ⟨c, rest ++ '.' :: d :: parts, rfl, hc,
        hrest.append (.dot hd (continues_of_parts hparts))⟩
  · rintro ⟨c, rest, rfl, hc, hrest⟩
    exact IsDotted.append (.identifier ⟨c, [], rfl, hc, by simp⟩) hrest

theorem IsDotted.continues {cs : List Char} (h : IsDotted cs) : Continues cs := by
  obtain ⟨c, rest, rfl, hc, hrest⟩ := isDotted_iff.1 h
  exact .part (isPart_of_isStart hc) hrest

/-! ## Occurrences -/

/-- **A word at a place of a text**: what is before it, the word, and what is after it. -/
structure Occurrence where
  /-- What is before the word. -/
  before : List Char
  /-- The word. -/
  word : List Char
  /-- What is after the word. -/
  after : List Char

namespace Occurrence

/-- The text in which the word occurs. -/
def text (o : Occurrence) : List Char := o.before ++ o.word ++ o.after

/-- The place at which the word starts. -/
def start (o : Occurrence) : Nat := o.before.length

/-- The place before which the word ends. -/
def stop (o : Occurrence) : Nat := o.before.length + o.word.length

/-- The word as a name. -/
def name (o : Occurrence) : String := String.ofList o.word

/-- **An occurrence of a dotted name** in a text. -/
def IsNameIn (o : Occurrence) (cs : List Char) : Prop := o.text = cs ∧ IsDotted o.word

/-- An occurrence is part of another: it starts no earlier and ends no later. -/
def Within (o p : Occurrence) : Prop := p.start ≤ o.start ∧ o.stop ≤ p.stop

/-- **A maximal occurrence** of a dotted name in a text: it is part of no other. -/
def IsMaximal (o : Occurrence) (cs : List Char) : Prop :=
  o.IsNameIn cs ∧ ∀ p : Occurrence, p.IsNameIn cs → o.Within p → p = o

variable {o p : Occurrence} {cs : List Char}

/-- In one text, the places say what occurs. -/
theorem eq_of_text_eq (htext : o.text = p.text) (hstart : o.start = p.start)
    (hstop : o.stop = p.stop) : o = p := by
  have hlength : o.word.length = p.word.length := by
    simp only [start, stop] at hstart hstop
    omega
  obtain ⟨hfront, hafter⟩ := List.append_inj htext (by simp [hlength, show o.before.length
    = p.before.length from hstart])
  obtain ⟨hbefore, hword⟩ := List.append_inj hfront hstart
  cases o
  cases p
  simp_all

theorem IsNameIn.start_lt_stop (h : o.IsNameIn cs) : o.start < o.stop := by
  obtain ⟨c, rest, hword, -, -⟩ := isDotted_iff.1 h.2
  simp [start, stop, hword]

theorem IsNameIn.stop_le (h : o.IsNameIn cs) : o.stop ≤ cs.length := by
  rw [← h.1]
  simp [stop, text]

/-- A dotted name begins with the start of an identifier. -/
theorem IsNameIn.exists_start {before rest : List Char} (h : o.IsNameIn (before ++ rest))
    (hstart : o.start = before.length) : ∃ c tail, rest = c :: tail ∧ isStart c = true := by
  obtain ⟨c, tail, hword, hc, -⟩ := isDotted_iff.1 h.2
  have htext := h.1
  rw [text, List.append_assoc] at htext
  obtain ⟨-, hrest⟩ := List.append_inj htext hstart
  exact ⟨c, tail ++ o.after, by rw [← hrest, hword, List.cons_append], hc⟩

/-- So it does not begin where no identifier starts. -/
theorem IsNameIn.start_ne {before rest : List Char} {c : Char}
    (h : o.IsNameIn (before ++ c :: rest)) (hc : isStart c = false) :
    o.start ≠ before.length := by
  intro hstart
  obtain ⟨d, tail, hrest, hd⟩ := h.exists_start hstart
  rw [← (List.cons.inj hrest).1, hc] at hd
  cases hd

end Occurrence

/-! ## Places that no name reaches over -/

/-- **No dotted name of a text reaches over a place**: each ends before it or starts after
it. -/
def Apart (cs : List Char) (place : Nat) : Prop :=
  ∀ o : Occurrence, o.IsNameIn cs → o.stop ≤ place ∨ place ≤ o.start

theorem apart_zero (cs : List Char) : Apart cs 0 := fun _ _ => .inr (Nat.zero_le _)

/-- Nor does one reach over the next place, if none starts between them. -/
theorem Apart.skip {before rest : List Char} {c : Char}
    (h : Apart (before ++ c :: rest) before.length) (hc : isStart c = false) :
    Apart (before ++ c :: rest) (before ++ [c]).length := by
  intro o ho
  have hne := ho.start_ne hc
  rw [List.length_append, List.length_singleton]
  refine (h o ho).imp (fun hstop => ?_) fun hstart => ?_ <;> omega

/-- **A name between two such places is maximal.** -/
theorem Occurrence.IsNameIn.isMaximal {o : Occurrence} {cs : List Char} (h : o.IsNameIn cs)
    (hstart : Apart cs o.start) (hstop : Apart cs o.stop) : o.IsMaximal cs := by
  refine ⟨h, fun p hp hwithin => ?_⟩
  have hlt := h.start_lt_stop
  obtain ⟨hbelow, habove⟩ := hwithin
  have hsame : p.start = o.start ∧ p.stop = o.stop := by
    have hfirst := hstart p hp
    have hlast := hstop p hp
    omega
  exact eq_of_text_eq (hp.1.trans h.1.symm) hsame.1 hsame.2

/-- **No name reaches over a place where the text does not go on.** -/
theorem apart_of_not_goesOn {front rest : List Char} (h : ¬ GoesOn rest) :
    Apart (front ++ rest) front.length := by
  rintro ⟨before, word, after⟩ ⟨htext, hdotted⟩
  change before ++ word ++ after = front ++ rest at htext
  change before.length + word.length ≤ front.length ∨ front.length ≤ before.length
  -- what the two ways to cut the text have between them is an end of the name
  obtain ⟨between, hfront, -⟩ | ⟨back, hback, hrest⟩ := List.append_eq_append_iff.1 htext
  · left
    rw [hfront, List.length_append, List.length_append]
    omega
  · obtain rfl | hne := eq_or_ne back []
    · left
      rw [← List.length_append, hback, List.append_nil]
    obtain ⟨inner, hinner, hword⟩ | ⟨_, hbefore, -⟩ := List.append_eq_append_iff.1 hback
    · rw [hword] at hdotted
      exact absurd (hrest ▸ (hdotted.continues.goesOn hne).append after) h
    · right
      rw [hbefore, List.length_append]
      omega

/-! ## What a reading finds -/

/-- **A reading from left to right.** After the text before a place, the rest is read: a
character that starts no identifier is passed over, and a dotted name that the text after it
does not go on with is found. -/
inductive Finds : List Char → List Char → List Occurrence → Prop
  /-- The text has been read. -/
  | done {before : List Char} : Finds before [] []
  /-- A character is passed over. -/
  | skip {before rest : List Char} {c : Char} {found : List Occurrence}
    (hc : isStart c = false) (hrest : Finds (before ++ [c]) rest found) :
    Finds before (c :: rest) found
  /-- A name is found. -/
  | name {before word after : List Char} {found : List Occurrence} (hword : IsDotted word)
    (hafter : ¬ GoesOn after) (hrest : Finds (before ++ word) after found) :
    Finds before (word ++ after) (⟨before, word, after⟩ :: found)

/-- **A name ends where the text does not go on with it.** -/
theorem scan_inside_of_not_goesOn {rest : List Char} (h : ¬ GoesOn rest) (name : List Char) :
    scan (.inside name) rest = name.reverse :: scan .outside rest := by
  match rest with
  | [] => rfl
  | c :: rest =>
    have hpart : isPart c = false := Bool.eq_false_iff.2 fun hpart => h (.part hpart)
    have hstart : isStart c = false :=
      Bool.eq_false_iff.2 fun hstart => h (.part (isPart_of_isStart hstart))
    by_cases hdot : c = '.'
    · subst hdot
      rw [scan_inside_of_dot, scan_outside_of_not_isStart hstart]
      -- the scan waits after the dot for one more character, which starts no identifier
      match rest with
      | [] => rfl
      | d :: rest =>
        have hnext : isStart d = false := Bool.eq_false_iff.2 fun hnext => h (.dot hnext)
        simp [scan, ScanState.step, ScanState.ended?, ScanState.restart, hnext]
    · rw [scan_inside_of_not_isPart hpart hdot, scan_outside_of_not_isStart hstart]

/-- In a name, the scan goes on as long as the text does. -/
theorem exists_scan_inside (name rest : List Char) :
    ∃ more after, rest = more ++ after ∧ Continues more ∧ ¬ GoesOn after
      ∧ scan (.inside name) rest = (name.reverse ++ more) :: scan .outside after := by
  induction hn : rest.length using Nat.strong_induction_on generalizing name rest with
  | _ n ih =>
    by_cases hgoes : GoesOn rest
    · cases hgoes with
      | @part c rest hpart =>
        obtain ⟨more, after, rfl, hmore, hafter, hscan⟩ :=
          ih rest.length (by simp [← hn]) (c :: name) rest rfl
        refine ⟨c :: more, after, rfl, .part hpart hmore, hafter, ?_⟩
        rw [scan_inside_of_isPart hpart, hscan]
        simp
      | @dot c rest hstart =>
        obtain ⟨more, after, rfl, hmore, hafter, hscan⟩ :=
          ih rest.length (by rw [← hn, List.length_cons, List.length_cons]; omega)
            (c :: '.' :: name) rest rfl
        refine ⟨'.' :: c :: more, after, rfl, .dot hstart hmore, hafter, ?_⟩
        rw [scan_inside_of_dot, scan_afterDot_of_isStart hstart, hscan]
        simp
    · refine ⟨[], rest, rfl, .nil, hgoes, ?_⟩
      rw [scan_inside_of_not_goesOn hgoes, List.append_nil]

theorem exists_finds (before rest : List Char) :
    ∃ found, Finds before rest found ∧ found.map (·.word) = scan .outside rest := by
  induction hn : rest.length using Nat.strong_induction_on generalizing before rest with
  | _ n ih =>
    match rest with
    | [] => exact ⟨[], .done, rfl⟩
    | c :: rest =>
      by_cases hstart : isStart c = true
      · obtain ⟨more, after, rfl, hmore, hafter, hscan⟩ := exists_scan_inside [c] rest
        have hword : IsDotted (c :: more) := isDotted_iff.2 ⟨c, more, rfl, hstart, hmore⟩
        obtain ⟨found, hfound, hwords⟩ :=
          ih after.length (by rw [← hn, List.length_cons, List.length_append]; omega)
            (before ++ c :: more) after rfl
        refine ⟨⟨before, c :: more, after⟩ :: found, .name hword hafter hfound, ?_⟩
        rw [List.map_cons, hwords, scan_outside_of_isStart hstart, hscan]
        rfl
      · have hskip : isStart c = false := Bool.eq_false_iff.2 hstart
        obtain ⟨found, hfound, hwords⟩ := ih rest.length (by simp [← hn]) (before ++ [c]) rest rfl
        exact ⟨found, .skip hskip hfound, by rw [hwords, scan_outside_of_not_isStart hskip]⟩

namespace Finds

variable {before rest : List Char} {found : List Occurrence}

/-- **Each occurrence is part of one that is found.** -/
theorem exists_within (h : Finds before rest found) {o : Occurrence}
    (ho : o.IsNameIn (before ++ rest)) (hstart : before.length ≤ o.start) :
    ∃ p ∈ found, o.Within p := by
  induction h with
  | done =>
    have hlt := ho.start_lt_stop
    have hle := ho.stop_le
    rw [List.append_nil] at hle
    omega
  | @skip before rest c found hc _ ih =>
    have hne := ho.start_ne hc
    refine ih (by simpa using ho) ?_
    rw [List.length_append, List.length_singleton]
    omega
  | @name before word after found hword hafter _ ih =>
    rw [← List.append_assoc] at ho
    obtain hstop | hlater := apart_of_not_goesOn hafter o ho
    · refine ⟨_, List.mem_cons_self, hstart, ?_⟩
      rwa [List.length_append] at hstop
    · obtain ⟨p, hp, hwithin⟩ := ih ho hlater
      exact ⟨p, List.mem_cons_of_mem _ hp, hwithin⟩

/-- What is found are dotted names of the text, at places that had not been read. -/
theorem isNameIn (h : Finds before rest found) :
    ∀ o ∈ found, o.IsNameIn (before ++ rest) ∧ before.length ≤ o.start := by
  induction h with
  | done => simp
  | @skip before rest c found hc _ ih =>
    intro o ho
    obtain ⟨hname, hstart⟩ := ih o ho
    rw [List.length_append, List.length_singleton] at hstart
    exact ⟨by simpa using hname, by omega⟩
  | @name before word after found hword hafter _ ih =>
    rw [List.forall_mem_cons]
    refine ⟨⟨⟨List.append_assoc .., hword⟩, Nat.le_refl _⟩, fun o ho => ?_⟩
    obtain ⟨hname, hstart⟩ := ih o ho
    rw [List.length_append] at hstart
    exact ⟨by rwa [← List.append_assoc], by omega⟩

/-- **What is found is maximal.** -/
theorem isMaximal (h : Finds before rest found) (happart : Apart (before ++ rest) before.length) :
    ∀ o ∈ found, o.IsMaximal (before ++ rest) := by
  induction h with
  | done => simp
  | @skip before rest c found hc _ ih =>
    have hnext := happart.skip hc
    rw [← List.singleton_append, ← List.append_assoc] at hnext ⊢
    exact ih hnext
  | @name before word after found hword hafter hrest ih =>
    have hstop : Apart (before ++ word ++ after) (before ++ word).length :=
      apart_of_not_goesOn hafter
    rw [← List.append_assoc] at happart ⊢
    rw [List.forall_mem_cons]
    refine ⟨Occurrence.IsNameIn.isMaximal ⟨rfl, hword⟩ happart ?_, ih hstop⟩
    rwa [List.length_append] at hstop

/-- **What is found is in order**, with something between each two names. -/
theorem pairwise (h : Finds before rest found) :
    found.Pairwise fun o p => o.stop < p.start := by
  induction h with
  | done => exact .nil
  | skip _ _ ih => exact ih
  | @name before word after found hword hafter hrest ih =>
    refine List.pairwise_cons.2 ⟨fun p hp => ?_, ih⟩
    obtain ⟨hname, hstart⟩ := hrest.isNameIn p hp
    have hne : p.start ≠ (before ++ word).length := by
      intro heq
      obtain ⟨c, tail, rfl, hc⟩ := hname.exists_start heq
      exact hafter (.part (isPart_of_isStart hc))
    rw [List.length_append] at hstart hne
    exact Nat.lt_of_le_of_ne hstart hne.symm

end Finds

/-- **The names that a signature holds are the longest dotted names in its text.** The scan
finds each maximal occurrence of a dotted name and nothing else, from left to right and with
something between each two of them; and the types named by the signature are what it finds,
without the keywords, in ascending order. -/
theorem exists_occurrences (s : Signature) :
    ∃ found : List Occurrence,
      (∀ o, o ∈ found ↔ o.IsMaximal s.text.toList)
        ∧ (found.Pairwise fun o p => o.stop < p.start)
        ∧ tokens s.text = found.map (·.name)
        ∧ (∀ name, name ∈ s.names ↔
          name ∉ keywords ∧ ∃ o : Occurrence, o.IsMaximal s.text.toList ∧ o.name = name)
        ∧ s.names.Pairwise (· < ·) := by
  obtain ⟨found, hfound, hwords⟩ := exists_finds [] s.text.toList
  have hmaximal : ∀ o, o ∈ found ↔ o.IsMaximal s.text.toList := by
    intro o
    refine ⟨hfound.isMaximal (apart_zero _) o, fun ho => ?_⟩
    obtain ⟨p, hp, hwithin⟩ := hfound.exists_within ho.1 (Nat.zero_le _)
    rwa [← ho.2 p (hfound.isNameIn p hp).1 hwithin]
  have htokens : tokens s.text = found.map (·.name) := by
    rw [tokens, ← hwords, List.map_map]
    rfl
  refine ⟨found, hmaximal, hfound.pairwise, htokens, fun name => ?_, ?_⟩
  · rw [mem_names, htokens, List.mem_map, and_comm]
    simp only [hmaximal]
  · exact NameList.pairwise_ofList _

/-- A keyword counts as one only where it is a whole name. -/
example : (⟨"int.Foo<? super $int, int[]>"⟩ : Signature).names = ["$int", "int.Foo"] := by
  decide

end TypeAtlas.Signature

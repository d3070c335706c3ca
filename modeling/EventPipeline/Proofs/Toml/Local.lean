import Mathlib.Tactic.SplitIfs
import EventPipeline.Proofs.Toml.Stops

/-! # Readers that look no further than they read

A reader that stops before a quotation mark has not looked behind it: with another text behind the mark
it reads the same and stops at the same place. For strings, keys, arrays and tables, which may have
such marks in them, this holds of what they read before the mark (`Local`), and for every fuel; with
any fuel above the length of the text they read the same.
-/

namespace EventPipeline.Toml

variable {α β : Type} {s s' a t : List Char}

theorem marked_inj : marked s a = marked s t ↔ a = t := List.append_left_inj _

theorem not_marked_suffix (t s : List Char) : ¬marked s t <:+ s := fun h => by
  have length := h.length_le
  simp only [marked, List.length_append, List.length_cons] at length
  omega

/-- A text in which a mark is still to come has that mark where the text it ends has it. -/
theorem eq_marked_of_suffix {cs : List Char} (h : marked s t <:+ cs) : ∃ a, cs = marked s a := by
  obtain ⟨before, rfl⟩ := h
  exact ⟨before ++ t, by simp [marked]⟩

/-- A reader that leaves an end of the text and does not look behind a mark that it leaves. -/
structure Local (read : List Char → Option (α × List Char)) : Prop where
  suffix : ∀ {cs x rest}, read cs = some (x, rest) → rest <:+ cs
  moves : ∀ {s a x t} (s'), read (marked s a) = some (x, marked s t) →
    read (marked s' a) = some (x, marked s' t)

/-- The same for a reader that answers only what it leaves. -/
structure LocalSkip (skip : List Char → Option (List Char)) : Prop where
  suffix : ∀ {cs rest}, skip cs = some rest → rest <:+ cs
  moves : ∀ {s a t} (s'), skip (marked s a) = some (marked s t) →
    skip (marked s' a) = some (marked s' t)

/-- The text that is left before a mark. -/
theorem Stops.local {read : List Char → Option (α × List Char)} (h : Stops read) : Local read where
  suffix := h.suffix
  moves {s a x t} s' made := by
    rw [h.stable, Option.map_eq_some_iff] at made
    obtain ⟨⟨y, rest⟩, made, same⟩ := made
    obtain ⟨rfl, left⟩ : y = x ∧ marked s rest = marked s t := Prod.mk.inj same
    rw [h.stable, made, marked_inj.mp left]
    rfl

theorem Passes.local {skip : List Char → Option (List Char)} (h : Passes skip) : LocalSkip skip where
  suffix := h.suffix
  moves {s a t} s' made := by
    rw [h.stable, Option.map_eq_some_iff] at made
    obtain ⟨rest, made, same⟩ := made
    rw [h.stable, made, marked_inj.mp same]
    rfl

/-! ### Readers made of others -/

theorem Local.bind {read : List Char → Option (α × List Char)}
    {next : α → List Char → Option (β × List Char)} (first : Local read)
    (second : ∀ x, Local (next x)) : Local fun cs => read cs >>= fun r => next r.1 r.2 where
  suffix made := by
    obtain ⟨r, one, two⟩ := Option.bind_eq_some_iff.mp made
    exact ((second r.1).suffix two).trans (first.suffix one)
  moves s' made := by
    obtain ⟨⟨x, rest⟩, one, two⟩ := Option.bind_eq_some_iff.mp made
    obtain ⟨b, rfl⟩ := eq_marked_of_suffix ((second x).suffix two)
    simp only [first.moves s' one]
    exact (second x).moves s' two

theorem LocalSkip.bind {skip : List Char → Option (List Char)}
    {read : List Char → Option (α × List Char)} (first : LocalSkip skip) (second : Local read) :
    Local fun cs => skip cs >>= read where
  suffix made := by
    obtain ⟨rest, one, two⟩ := Option.bind_eq_some_iff.mp made
    exact (second.suffix two).trans (first.suffix one)
  moves s' made := by
    obtain ⟨rest, one, two⟩ := Option.bind_eq_some_iff.mp made
    obtain ⟨b, rfl⟩ := eq_marked_of_suffix (second.suffix two)
    simp only [first.moves s' one]
    exact second.moves s' two

theorem Local.map {read : List Char → Option (α × List Char)} (h : Local read) (f : α → β) :
    Local fun cs => (read cs).map fun r => (f r.1, r.2) where
  suffix made := by
    obtain ⟨r, read, same⟩ := Option.map_eq_some_iff.mp made
    cases same
    exact h.suffix read
  moves s' made := by
    obtain ⟨⟨x, rest⟩, read, same⟩ := Option.map_eq_some_iff.mp made
    obtain ⟨rfl, rfl⟩ := Prod.mk.inj same
    simp only [h.moves s' read, Option.map_some]

/-- A reader that depends on what there may be already. -/
theorem Local.given {read : β → List Char → Option (α × List Char)} (x? : Option β)
    (each : ∀ x, Local (read x)) : Local fun cs => x? >>= fun x => read x cs where
  suffix made := by
    obtain ⟨x, -, made⟩ := Option.bind_eq_some_iff.mp made
    exact (each x).suffix made
  moves s' made := by
    obtain ⟨x, given, made⟩ := Option.bind_eq_some_iff.mp made
    exact Option.bind_eq_some_iff.mpr ⟨x, given, (each x).moves s' made⟩

theorem Local.fail : Local fun _ => (none : Option (α × List Char)) where
  suffix made := by cases made
  moves _ made := by cases made

/-- A reader that goes by the first character and reads on behind it. -/
theorem Local.of_head {read : List Char → Option (α × List Char)}
    {behind : Char → List Char → Option (α × List Char)} (nil : read [] = none)
    (cons : ∀ c cs, read (c :: cs) = behind c cs) (each : ∀ c, Local (behind c)) : Local read where
  suffix {cs x rest} made := by
    rcases cs with _ | ⟨c, cs⟩
    · rw [nil] at made; cases made
    · exact suffix_cons ((each c).suffix ((cons c cs).symm.trans made)) c
  moves {s a x t} s' made := by
    rcases a with _ | ⟨c, a⟩
    · exact absurd ((each '"').suffix ((cons _ s).symm.trans made)) (not_marked_suffix t s)
    · exact (cons c _).trans ((each c).moves s' ((cons c _).symm.trans made))

/-- A reader that does one thing behind a character and another where that character is not. -/
theorem Local.after {c : Char} {read f g : List Char → Option (α × List Char)}
    (hit : ∀ cs, read (c :: cs) = f cs) (miss : ∀ cs, ¬[c] <+: cs → read cs = g cs)
    (behind : Local f) (elsewhere : Local g) : Local read where
  suffix {cs x rest} made := by
    by_cases starts : [c] <+: cs
    · obtain ⟨cs, rfl⟩ := starts
      exact suffix_cons (behind.suffix ((hit cs).symm.trans made)) c
    · rw [miss cs starts] at made
      exact elsewhere.suffix made
  moves {s a x t} s' made := by
    by_cases starts : [c] <+: marked s a
    · obtain ⟨cs, whole⟩ := starts
      rw [← whole] at made
      have left := (hit cs).symm.trans made
      rcases a with _ | ⟨d, a⟩
      · cases whole
        exact absurd (behind.suffix left) (not_marked_suffix _ _)
      · cases whole
        exact (hit _).trans (behind.moves s' left)
    · have absent : ¬[c] <+: marked s' a := by
        rcases a with _ | ⟨d, a⟩
        · simpa using starts
        · simpa using starts
      rw [miss _ starts] at made
      rw [miss _ absent]
      exact elsewhere.moves s' made

/-! ### Fuel -/

/-- A reader that needs no more fuel than there are characters. -/
def Frugal (loop : Nat → List Char → Option α) : Prop :=
  ∀ n m cs r, loop n cs = some r → cs.length < m → loop m cs = some r

theorem Frugal.eq {loop : Nat → List Char → Option α} (h : Frugal loop) {n m : Nat} {cs : List Char}
    (one : cs.length < n) (two : cs.length < m) : loop n cs = loop m cs :=
  Option.ext fun _ => ⟨fun made => h _ _ _ _ made two, fun made => h _ _ _ _ made one⟩

/-- A reader that reads on with less fuel where less is left. -/
theorem Frugal.of_step {loop : Nat → List Char → Option α}
    (step : (List Char → Option α) → List Char → Option α) (zero : ∀ cs, loop 0 cs = none)
    (succ : ∀ n cs, loop (n + 1) cs = step (loop n) cs)
    (mono : ∀ {cs r read read'}, (∀ left r, left.length < cs.length → read left = some r →
      read' left = some r) → step read cs = some r → step read' cs = some r) : Frugal loop := by
  intro n m cs r made enough
  induction n generalizing m cs r with
  | zero => rw [zero] at made; cases made
  | succ n ih =>
    obtain ⟨m, rfl⟩ := Nat.exists_eq_add_one_of_ne_zero (show m ≠ 0 by omega)
    rw [succ] at made ⊢
    exact mono (fun left r shorter one => ih _ _ _ one (by omega)) made

/-- A reader that goes by the first character and reads on with less fuel. -/
theorem Frugal.of_head {loop : Nat → List Char → Option α}
    (behind : Char → (List Char → Option α) → List Char → Option α) (zero : ∀ cs, loop 0 cs = none)
    (nil : ∀ n, loop n [] = none) (cons : ∀ n c cs, loop (n + 1) (c :: cs) = behind c (loop n) cs)
    (mono : ∀ {c cs r read read'}, (∀ left r, left <:+ cs → read left = some r → read' left = some r) →
      behind c read cs = some r → behind c read' cs = some r) : Frugal loop := by
  refine .of_step (fun read cs => cs.head?.bind fun c => behind c read cs.tail)
    zero (fun n cs => ?_) fun {cs r read read'} each made => ?_
  · rcases cs with _ | ⟨c, cs⟩
    · exact nil _
    · exact cons n c cs
  · rcases cs with _ | ⟨c, cs⟩
    · cases made
    · exact mono (fun left r ends => each left r (Nat.lt_succ_of_le ends.length_le)) made

/-- A reader that is given as much fuel as it can need. -/
theorem Local.fueled {loop : Nat → List Char → Option (α × List Char)} (each : ∀ n, Local (loop n))
    (frugal : Frugal loop) : Local fun cs => loop (cs.length + 1) cs where
  suffix made := (each _).suffix made
  moves s' made := frugal _ _ _ _ ((each _).moves s' made) (Nat.lt_succ_self _)

/-! ### Blanks and ends of lines -/

theorem skipBlanks_marked (s a : List Char) : skipBlanks (marked s a) = marked s (skipBlanks a) :=
  dropWhile_marked s (by decide) a

theorem skipBlanks_suffix (cs : List Char) : skipBlanks cs <:+ cs := List.dropWhile_suffix _

theorem Local.blanks {read : List Char → Option (α × List Char)} (h : Local read) :
    Local fun cs => read (skipBlanks cs) where
  suffix {cs _ _} made := (h.suffix made).trans (skipBlanks_suffix cs)
  moves s' made := by
    rw [skipBlanks_marked] at made ⊢
    exact h.moves s' made

theorem dropWhile_moves {p : Char → Bool} (h : (marked s a).dropWhile p = marked s t)
    (s' : List Char) : (marked s' a).dropWhile p = marked s' t := by
  induction a with
  | nil =>
    cases taken : p '"' with
    | true =>
      rw [marked_nil, List.dropWhile_cons_of_pos taken] at h
      exact absurd (h ▸ List.dropWhile_suffix p) (not_marked_suffix t s)
    | false =>
      rw [marked_nil, List.dropWhile_cons_of_neg (by simp [taken]), ← marked_nil, marked_inj] at h
      simp [← h, taken]
  | cons c a ih =>
    cases taken : p c with
    | true => simpa [taken] using ih (by simpa [taken] using h)
    | false =>
      rw [marked_cons, List.dropWhile_cons_of_neg (by simp [taken]), ← marked_cons, marked_inj] at h
      simp [← h, taken]

theorem lineBreak?_eq_some {cs rest : List Char} (made : lineBreak? cs = some rest) :
    cs = '\n' :: rest ∨ cs = '\r' :: '\n' :: rest := by
  unfold lineBreak? at made
  split at made <;> cases made
  · exact .inl rfl
  · exact .inr rfl

theorem lineBreak?_eq_none {cs : List Char} (feed : ¬['\n'] <+: cs) (back : ¬['\r', '\n'] <+: cs) :
    lineBreak? cs = none := by
  unfold lineBreak?
  split
  · exact absurd (by simp) feed
  · exact absurd (by simp) back
  · rfl

theorem lineBreak?_passes : Passes lineBreak? where
  suffix {cs rest} made := by
    rcases lineBreak?_eq_some made with rfl | rfl
    · exact ⟨['\n'], rfl⟩
    · exact ⟨['\r', '\n'], rfl⟩
  stable a s := by
    by_cases feed : ['\n'] <+: a
    · obtain ⟨rest, rfl⟩ := feed
      rfl
    · by_cases back : ['\r', '\n'] <+: a
      · obtain ⟨rest, rfl⟩ := back
        rfl
      · rw [lineBreak?_eq_none feed back, lineBreak?_eq_none]
        · rfl
        · rwa [prefix_marked_iff s (by decide)]
        · rwa [prefix_marked_iff s (by decide)]

/-- The text behind a comment, if there is one. -/
def afterComment (cs : List Char) : List Char :=
  match cs with
  | '#' :: rest => rest.dropWhile isPrintable
  | _ => cs

theorem afterComment_of_ne {c : Char} (h : c ≠ '#') (cs : List Char) :
    afterComment (c :: cs) = c :: cs := by
  simp [afterComment, h]

theorem afterComment_suffix (cs : List Char) : afterComment cs <:+ cs := by
  unfold afterComment
  split
  · exact suffix_cons (List.dropWhile_suffix _) _
  · exact List.suffix_rfl

theorem afterComment_moves (h : afterComment (marked s a) = marked s t) (s' : List Char) :
    afterComment (marked s' a) = marked s' t := by
  rcases a with _ | ⟨c, a⟩
  · rw [← marked_inj.mp (show marked s [] = marked s t from h)]
    rfl
  · by_cases hash : c = '#'
    · subst hash
      exact dropWhile_moves h s'
    · rw [marked_cons, afterComment_of_ne hash, ← marked_cons, marked_inj] at h
      rw [marked_cons, afterComment_of_ne hash, ← marked_cons, h]

/-- The end of the text or a line break. -/
def break? (cs : List Char) : Option (List Char) :=
  match cs with
  | [] => some []
  | _ => lineBreak? cs

theorem lineEnd?_eq (cs : List Char) : lineEnd? cs = break? (afterComment (skipBlanks cs)) := rfl

theorem break?_local : LocalSkip break? where
  suffix {cs rest} made := by
    rcases cs with _ | ⟨c, cs⟩
    · cases made; exact List.suffix_rfl
    · exact lineBreak?_passes.suffix made
  moves {s a t} s' made := by
    have moved := lineBreak?_passes.local.moves (s := s) (a := a) (t := t) s'
    rcases a with _ | ⟨c, a⟩
    · exact moved made
    · exact moved made

theorem lineEnd?_local : LocalSkip lineEnd? where
  suffix {cs rest} made :=
    (break?_local.suffix made).trans ((afterComment_suffix _).trans (skipBlanks_suffix cs))
  moves {s a t} s' made := by
    rw [lineEnd?_eq, skipBlanks_marked] at made ⊢
    obtain ⟨b, left⟩ := eq_marked_of_suffix (break?_local.suffix made)
    rw [left] at made
    rw [afterComment_moves left s']
    exact break?_local.moves s' made

theorem skipFiller_suffix (inComment : Bool) (cs : List Char) : skipFiller inComment cs <:+ cs := by
  fun_induction skipFiller inComment cs with
  | case1 | case5 | case8 => exact List.suffix_rfl
  | case2 _ rest ih => exact suffix_cons ih _
  | case3 _ rest ih => exact suffix_cons (suffix_cons ih _) _
  | case4 c rest _ _ _ ih => exact suffix_cons ih _
  | case6 c rest _ _ _ ih => exact suffix_cons ih _
  | case7 rest _ _ _ ih => exact suffix_cons ih _

/-- What comes behind a character that breaks no line breaks none with it. -/
theorem not_break_marked {c : Char} {rest : List Char}
    (single : ∀ after, c = '\r' → rest = '\n' :: after → False) (s : List Char) :
    ∀ after, c = '\r' → marked s rest = '\n' :: after → False := by
  intro after same starts
  rcases rest with _ | ⟨d, rest⟩
  · simp at starts
  · obtain ⟨rfl, -⟩ : d = '\n' ∧ _ := by simpa using starts
    exact single rest same rfl

theorem skipFiller_moves {inComment : Bool} (h : skipFiller inComment (marked s a) = marked s t)
    (s' : List Char) : skipFiller inComment (marked s' a) = marked s' t := by
  fun_induction skipFiller inComment a with
  | case1 inComment =>
    cases inComment with
    | true =>
      have whole : skipFiller true s = marked s t := h
      exact absurd (whole ▸ skipFiller_suffix true s) (not_marked_suffix t s)
    | false =>
      rw [← marked_inj.mp (show marked s [] = marked s t from h)]
      rfl
  | case2 _ rest ih => exact ih h
  | case3 _ rest ih => exact ih h
  | case4 c rest feed single printable ih =>
    rw [marked_cons, skipFiller.eq_4 c _ feed (not_break_marked single s), if_pos printable] at h
    rw [marked_cons, skipFiller.eq_4 c _ feed (not_break_marked single s'), if_pos printable]
    exact ih h
  | case5 c rest feed single control =>
    rw [marked_cons, skipFiller.eq_4 c _ feed (not_break_marked single s), if_neg control,
      ← marked_cons, marked_inj] at h
    rw [marked_cons, skipFiller.eq_4 c _ feed (not_break_marked single s'), if_neg control,
      ← marked_cons, h]
  | case6 c rest feed single blank ih =>
    rw [marked_cons, skipFiller.eq_5 c _ feed (not_break_marked single s), if_pos blank] at h
    rw [marked_cons, skipFiller.eq_5 c _ feed (not_break_marked single s'), if_pos blank]
    exact ih h
  | case7 rest feed single blank ih =>
    exact ih h
  | case8 c rest feed single blank hash =>
    rw [marked_cons, skipFiller.eq_5 c _ feed (not_break_marked single s), if_neg blank, if_neg hash,
      ← marked_cons, marked_inj] at h
    rw [marked_cons, skipFiller.eq_5 c _ feed (not_break_marked single s'), if_neg blank, if_neg hash,
      ← marked_cons, h]

theorem Local.filler {read : List Char → Option (α × List Char)} (h : Local read) :
    Local fun cs => read (skipFiller false cs) where
  suffix {cs _ _} made := (h.suffix made).trans (skipFiller_suffix false cs)
  moves s' made := by
    obtain ⟨b, left⟩ := eq_marked_of_suffix (h.suffix made)
    rw [left] at made
    simp only [skipFiller_moves left s']
    exact h.moves s' made

/-! ### Strings -/

theorem length_of_mapM {f : α → Option β} {xs : List α} {ys : List β} (h : xs.mapM f = some ys) :
    ys.length = xs.length := by
  induction xs generalizing ys with
  | nil => cases h; rfl
  | cons x xs ih =>
    rw [List.mapM_cons] at h
    obtain ⟨y, -, h⟩ := Option.bind_eq_some_iff.mp h
    obtain ⟨zs, rest, h⟩ := Option.bind_eq_some_iff.mp h
    cases h
    rw [List.length_cons, List.length_cons, ih rest]

theorem mapM_hexValue?_marked (digits : List Char) (rest : List Char) :
    (digits ++ '"' :: rest).mapM hexValue? = none := by
  induction digits with
  | nil => rfl
  | cons c digits ih =>
    rw [List.cons_append, List.mapM_cons, ih]
    cases hexValue? c <;> rfl

theorem codePoint?_stops (count : Nat) : Stops (codePoint? count) where
  suffix {cs x rest} made := by
    obtain ⟨digits, -, made⟩ := Option.bind_eq_some_iff.mp made
    simp only [Option.ite_none_right_eq_some, Option.some.injEq, Prod.mk.injEq] at made
    obtain ⟨-, -, rfl⟩ := made
    exact List.drop_suffix ..
  stable a s := by
    by_cases enough : count ≤ a.length
    · simp only [codePoint?, marked, List.take_append_of_le_length enough,
        List.drop_append_of_le_length enough]
      cases (a.take count).mapM hexValue? with
      | none => rfl
      | some digits => simp only [Option.bind_eq_bind, Option.bind_some]; split <;> rfl
    · have marked_none : codePoint? count (marked s a) = none := by
        obtain ⟨more, rfl⟩ : ∃ more, count = a.length + (more + 1) :=
          ⟨count - a.length - 1, by omega⟩
        rw [codePoint?, marked, List.take_length_add_append, List.take_succ_cons,
          mapM_hexValue?_marked]
        rfl
      have short_none : codePoint? count a = none := by
        cases read : (a.take count).mapM hexValue? with
        | none => simp only [codePoint?, read]; rfl
        | some digits =>
          have length := length_of_mapM read
          rw [List.length_take] at length
          simp only [codePoint?, read, Option.bind_eq_bind, Option.bind_some]
          exact if_neg fun h => by omega
      rw [marked_none, short_none]
      rfl

/-- An escape without a code point is one character. -/
theorem escape?_short {c : Char} (four : c ≠ 'u') (eight : c ≠ 'U') (cs : List Char) :
    escape? (c :: cs) = (escape? [c]).map fun r => (r.1, cs) := by
  unfold escape?
  split <;> simp_all

/-- What a backslash and a character stand for, given what is behind the character. -/
def escapeBy? (c : Char) : List Char → Option (Char × List Char) :=
  if c = 'u' then codePoint? 4
  else if c = 'U' then codePoint? 8
  else fun cs => (escape? [c]).map Prod.fst >>= fun d => pure (d, cs)

theorem escape?_cons (c : Char) (cs : List Char) : escape? (c :: cs) = escapeBy? c cs := by
  unfold escapeBy?
  split
  · next four => subst four; rfl
  · split
    · next eight => subst eight; rfl
    · next four eight =>
      rw [escape?_short four eight]
      cases escape? [c] <;> rfl

theorem escape?_local : Local escape? := by
  refine .of_head rfl escape?_cons fun c => ?_
  unfold escapeBy?
  split
  · exact (codePoint?_stops 4).local
  · split
    · exact (codePoint?_stops 8).local
    · exact (Stops.answer _).local

/-- An escape, before what a reader reads. -/
def escaped? (read : List Char → Option (List Char × List Char)) (cs : List Char) :
    Option (List Char × List Char) :=
  escape? cs >>= fun r => read r.2 >>= fun content => pure (r.1 :: content.1, content.2)

/-- A character that stands for itself, before what a reader reads. -/
def verbatim? (c : Char) (read : List Char → Option (List Char × List Char)) (cs : List Char) :
    Option (List Char × List Char) :=
  read cs >>= fun content => pure (c :: content.1, content.2)

section Content

variable {read read' : List Char → Option (List Char × List Char)} {cs : List Char}
  {r : List Char × List Char}

theorem escaped?_local (h : Local read) : Local (escaped? read) :=
  escape?_local.bind fun c => h.bind fun content => (Stops.answer (some (c :: content))).local

theorem verbatim?_local (c : Char) (h : Local read) : Local (verbatim? c read) :=
  h.bind fun content => (Stops.answer (some (c :: content))).local

theorem escaped?_mono (each : ∀ left r, left <:+ cs → read left = some r → read' left = some r)
    (made : escaped? read cs = some r) : escaped? read' cs = some r := by
  obtain ⟨⟨d, left⟩, escape, made⟩ := Option.bind_eq_some_iff.mp made
  obtain ⟨content, one, made⟩ := Option.bind_eq_some_iff.mp made
  exact Option.bind_eq_some_iff.mpr ⟨(d, left), escape,
    Option.bind_eq_some_iff.mpr ⟨content, each _ _ (escape?_local.suffix escape) one, made⟩⟩

theorem verbatim?_mono {c : Char}
    (each : ∀ left r, left <:+ cs → read left = some r → read' left = some r)
    (made : verbatim? c read cs = some r) : verbatim? c read' cs = some r := by
  obtain ⟨content, one, made⟩ := Option.bind_eq_some_iff.mp made
  exact Option.bind_eq_some_iff.mpr ⟨content, each _ _ List.suffix_rfl one, made⟩

/-- What is done with the first character in a string on one line. -/
def lineStep (q : Quoting) (c : Char) (read : List Char → Option (List Char × List Char)) :
    List Char → Option (List Char × List Char) :=
  if c = q.mark then fun cs => some ([], cs)
  else if q.escapes ∧ c = '\\' then escaped? read
  else if isPrintable c then verbatim? c read
  else fun _ => none

theorem lineContent?_nil (q : Quoting) (n : Nat) : lineContent? q n [] = none := by cases n <;> rfl

theorem lineContent?_cons (q : Quoting) (n : Nat) (c : Char) (cs : List Char) :
    lineContent? q (n + 1) (c :: cs) = lineStep q c (lineContent? q n) cs := by
  unfold lineStep
  rw [lineContent?]
  split_ifs <;> rfl

theorem lineStep_local (q : Quoting) (c : Char) (h : Local read) : Local (lineStep q c read) := by
  unfold lineStep
  split_ifs
  · exact (Stops.answer (some [])).local
  · exact escaped?_local h
  · exact verbatim?_local c h
  · exact .fail

theorem lineStep_mono {q : Quoting} {c : Char}
    (each : ∀ left r, left <:+ cs → read left = some r → read' left = some r)
    (made : lineStep q c read cs = some r) : lineStep q c read' cs = some r := by
  unfold lineStep at made ⊢
  split_ifs at made ⊢
  · exact made
  · exact escaped?_mono each made
  · exact verbatim?_mono each made

theorem lineContent?_local (q : Quoting) (n : Nat) : Local (lineContent? q n) := by
  induction n with
  | zero => exact .fail
  | succ n ih => exact .of_head rfl (lineContent?_cons q n) fun c => lineStep_local q c ih

theorem lineContent?_frugal (q : Quoting) : Frugal (lineContent? q) :=
  Frugal.of_head (lineStep q) (fun _ => rfl) (lineContent?_nil q) (lineContent?_cons q) lineStep_mono

/-- A reader that does one thing where another finds what it skips, and a third where not. -/
theorem Passes.orElse {skip : List Char → Option (List Char)}
    {f g : List Char → Option (α × List Char)} (h : Passes skip) (behind : Local f)
    (elsewhere : Local g) : Local fun cs =>
      match skip cs with
      | some rest => f rest
      | none => g cs where
  suffix {cs x rest} made := by
    split at made
    · next left found => exact (behind.suffix made).trans (h.suffix found)
    · exact elsewhere.suffix made
  moves {s a x t} s' made := by
    simp only [h.stable] at made ⊢
    cases found : skip a with
    | none =>
      simp only [found, Option.map_none] at made ⊢
      exact elsewhere.moves s' made
    | some left =>
      simp only [found, Option.map_some] at made ⊢
      exact behind.moves s' made

theorem skipBreaks_suffix (cs : List Char) : joined?.skipBreaks cs <:+ cs := by
  fun_induction joined?.skipBreaks cs with
  | case1 | case5 => exact List.suffix_rfl
  | case2 rest ih => exact suffix_cons ih _
  | case3 rest ih => exact suffix_cons (suffix_cons ih _) _
  | case4 c rest _ _ _ ih => exact suffix_cons ih _

theorem skipBreaks_marked (s a : List Char) :
    joined?.skipBreaks (marked s a) = marked s (joined?.skipBreaks a) := by
  have quote : isBlank '"' = false := by decide
  fun_induction joined?.skipBreaks a with
  | case1 => simp [joined?.skipBreaks, quote]
  | case2 rest ih => exact ih
  | case3 rest ih => exact ih
  | case4 c rest feed single blank ih =>
    rw [marked_cons, joined?.skipBreaks.eq_4 c _ feed (not_break_marked single s), if_pos blank, ih]
  | case5 c rest feed single other =>
    rw [marked_cons, joined?.skipBreaks.eq_4 c _ feed (not_break_marked single s), if_neg other]

theorem joined?_passes : Passes joined? where
  suffix {cs rest} made := by
    obtain ⟨left, broken, same⟩ := Option.map_eq_some_iff.mp made
    rw [← same]
    exact (skipBreaks_suffix left).trans ((lineBreak?_passes.suffix broken).trans (skipBlanks_suffix cs))
  stable a s := by
    rw [joined?, skipBlanks_marked, lineBreak?_passes.stable, joined?]
    cases lineBreak? (skipBlanks a) with
    | none => rfl
    | some rest => simp only [Option.map_some, skipBreaks_marked]

/-- The line break that a character starts. -/
theorem lineBreak?_cons_passes (c : Char) : Passes fun cs => lineBreak? (c :: cs) where
  suffix {cs rest} made := by
    rcases lineBreak?_eq_some made with same | same <;> cases same
    · exact List.suffix_rfl
    · exact List.suffix_cons ..
  stable a s := lineBreak?_passes.stable (c :: a) s

/-- The marks that may close a string on several lines. -/
def marks (q : Quoting) (cs : List Char) : List Char := (cs.takeWhile (· == q.mark)).take 5

/-- What is done with a character in a string on several lines that is no mark. -/
def blockStep (q : Quoting) (c : Char) (read : List Char → Option (List Char × List Char)) :
    List Char → Option (List Char × List Char) :=
  if q.escapes ∧ c = '\\' then fun cs =>
    match joined? cs with
    | some rest => read rest
    | none => escaped? read cs
  else fun cs =>
    match lineBreak? (c :: cs) with
    | some rest => verbatim? '\n' read rest
    | none => if isPrintable c then verbatim? c read cs else none

/-- What is done with a mark in a string on several lines. -/
def markStep (q : Quoting) (c : Char) (read : List Char → Option (List Char × List Char))
    (cs : List Char) : Option (List Char × List Char) :=
  if 3 ≤ (marks q (c :: cs)).length then
    some ((marks q (c :: cs)).drop 3, (c :: cs).drop (marks q (c :: cs)).length)
  else verbatim? c read cs

theorem blockContent?_nil (q : Quoting) (n : Nat) : blockContent? q n [] = none := by
  cases n <;> rfl

theorem blockContent?_cons (q : Quoting) (n : Nat) (c : Char) (cs : List Char) :
    blockContent? q (n + 1) (c :: cs) =
      if c = q.mark then markStep q c (blockContent? q n) cs
      else blockStep q c (blockContent? q n) cs := by
  rw [blockContent?]
  unfold blockStep
  split_ifs <;> rfl

theorem blockStep_local (q : Quoting) (c : Char) (h : Local read) : Local (blockStep q c read) := by
  unfold blockStep
  split_ifs
  · exact joined?_passes.orElse h (escaped?_local h)
  · exact (lineBreak?_cons_passes c).orElse (verbatim?_local '\n' h) (verbatim?_local c h)
  · exact (lineBreak?_cons_passes c).orElse (verbatim?_local '\n' h) .fail

theorem orElse_mono {skip : List Char → Option (List Char)} (h : Passes skip)
    {f f' : List Char → Option (List Char × List Char)} {g g' : Option (List Char × List Char)}
    (behind : ∀ left, left <:+ cs → f left = some r → f' left = some r)
    (elsewhere : g = some r → g' = some r)
    (made : (match skip cs with | some rest => f rest | none => g) = some r) :
    (match skip cs with | some rest => f' rest | none => g') = some r := by
  cases found : skip cs with
  | none =>
    simp only [found] at made ⊢
    exact elsewhere made
  | some rest =>
    simp only [found] at made ⊢
    exact behind rest (h.suffix found) made

theorem blockStep_mono {q : Quoting} {c : Char}
    (each : ∀ left r, left <:+ cs → read left = some r → read' left = some r)
    (made : blockStep q c read cs = some r) : blockStep q c read' cs = some r := by
  have broken : ∀ left, left <:+ cs → verbatim? '\n' read left = some r →
      verbatim? '\n' read' left = some r := fun left ends =>
    verbatim?_mono fun left' r ends' => each left' r (ends'.trans ends)
  unfold blockStep at made ⊢
  split_ifs at made ⊢
  · exact orElse_mono joined?_passes (fun left ends => each left r ends) (escaped?_mono each) made
  · exact orElse_mono (lineBreak?_cons_passes c) broken (verbatim?_mono each) made
  · exact orElse_mono (lineBreak?_cons_passes c) broken id made

theorem markStep_mono {q : Quoting} {c : Char}
    (each : ∀ left r, left <:+ cs → read left = some r → read' left = some r)
    (made : markStep q c read cs = some r) : markStep q c read' cs = some r := by
  unfold markStep at made ⊢
  split_ifs at made ⊢
  · exact made
  · exact verbatim?_mono each made

theorem blockContent?_frugal (q : Quoting) : Frugal (blockContent? q) := by
  refine .of_head (fun c read cs => if c = q.mark then markStep q c read cs
    else blockStep q c read cs) (fun _ => rfl) (blockContent?_nil q) (blockContent?_cons q) ?_
  intro c cs r read read' each made
  by_cases mark : c = q.mark
  · rw [if_pos mark] at made ⊢
    exact markStep_mono each made
  · rw [if_neg mark] at made ⊢
    exact blockStep_mono each made

/-- A reader that needs three characters at least. -/
def Closes (read : List Char → Option (List Char × List Char)) : Prop :=
  ∀ cs x rest, read cs = some (x, rest) → rest.length + 3 ≤ cs.length

theorem closes_fail : Closes fun _ => none := nofun

theorem verbatim?_closes {c : Char} (h : Closes read) : Closes (verbatim? c read) := by
  intro cs x rest made
  obtain ⟨content, one, made⟩ := Option.bind_eq_some_iff.mp made
  cases made
  exact h _ _ _ one

theorem escaped?_closes (h : Closes read) : Closes (escaped? read) := by
  intro cs x rest made
  obtain ⟨⟨d, left⟩, escape, made⟩ := Option.bind_eq_some_iff.mp made
  obtain ⟨content, one, made⟩ := Option.bind_eq_some_iff.mp made
  cases made
  exact Nat.le_trans (h _ _ _ one) (escape?_local.suffix escape).length_le

theorem Closes.orElse {skip : List Char → Option (List Char)} (h : Passes skip)
    {f g : List Char → Option (List Char × List Char)} (behind : Closes f) (elsewhere : Closes g) :
    Closes fun cs => match skip cs with | some rest => f rest | none => g cs := by
  intro cs x rest made
  cases found : skip cs with
  | none =>
    simp only [found] at made
    exact elsewhere _ _ _ made
  | some left =>
    simp only [found] at made
    exact Nat.le_trans (behind _ _ _ made) (h.suffix found).length_le

theorem blockStep_closes {q : Quoting} {c : Char} (h : Closes read) : Closes (blockStep q c read) := by
  unfold blockStep
  split_ifs
  · exact Closes.orElse joined?_passes h (escaped?_closes h)
  · exact Closes.orElse (lineBreak?_cons_passes c) (verbatim?_closes h) (verbatim?_closes h)
  · exact Closes.orElse (lineBreak?_cons_passes c) (verbatim?_closes h) closes_fail

theorem marks_length_le (q : Quoting) (cs : List Char) : (marks q cs).length ≤ cs.length := by
  rw [marks, List.length_take]
  exact Nat.le_trans (Nat.min_le_right ..) (List.takeWhile_sublist _).length_le

/-- Closing marks and all behind them are what three marks at least start. -/
theorem markStep_closes {q : Quoting} {c : Char} {x rest : List Char} (h : Closes read)
    (made : markStep q c read cs = some (x, rest)) : rest.length + 3 ≤ (c :: cs).length := by
  unfold markStep at made
  split_ifs at made
  · have bounded := marks_length_le q (c :: cs)
    cases made
    rw [List.length_drop]
    omega
  · have enough := verbatim?_closes h _ _ _ made
    rw [List.length_cons]
    omega

theorem blockContent?_closes (q : Quoting) (n : Nat) : Closes (blockContent? q n) := by
  induction n with
  | zero => exact closes_fail
  | succ n ih =>
    intro cs x rest made
    rcases cs with _ | ⟨c, cs⟩
    · cases made
    · rw [blockContent?_cons] at made
      split at made
      · exact markStep_closes ih made
      · have enough := blockStep_closes ih _ _ _ made
        rw [List.length_cons]
        omega

theorem marks_marked {q : Quoting} {b : List Char} (other : ∃ c ∈ b, c ≠ q.mark) (s : List Char) :
    marks q (marked s b) = marks q b := by
  have ends : b.takeWhile (· == q.mark) ≠ b := by
    obtain ⟨c, member, other⟩ := other
    intro same
    have all : (b.takeWhile (· == q.mark)).all (· == q.mark) = true := List.all_takeWhile
    rw [same, List.all_eq_true] at all
    exact other (by simpa using all c member)
  rw [marks, marks, marked, List.takeWhile_append, if_neg]
  exact fun same => ends (List.takeWhile_prefix _ |>.eq_of_length same)

/-- Where only marks come before one that is left, the string ends before that one. -/
theorem marks_of_left {q : Quoting} {b s : List Char} (only : ∀ c ∈ b, c = q.mark)
    (left : (marks q (marked s b)).length ≤ b.length) (s' : List Char) :
    marks q (marked s' b) = b.take 5 := by
  have all : ∀ s, (marked s b).takeWhile (· == q.mark) = b ++ ('"' :: s).takeWhile (· == q.mark) :=
    fun s => List.takeWhile_append_of_pos fun c member => by simpa using only c member
  by_cases long : 5 ≤ b.length
  · rw [marks, all, List.take_append_of_le_length long]
  · have none : '"' ≠ q.mark := by
      intro mark
      rw [marks, all, List.length_take, List.length_append, mark,
        List.takeWhile_cons_of_pos (by simp), List.length_cons] at left
      omega
    rw [marks, all, List.takeWhile_cons_of_neg (by simpa using none), List.append_nil]

/-- The marks at which a string ends before a mark that is left are the same before any text. -/
theorem marks_eq_of_left {q : Quoting} {b s : List Char}
    (left : (marks q (marked s b)).length ≤ b.length) (s' : List Char) :
    marks q (marked s' b) = marks q (marked s b) := by
  by_cases other : ∃ c ∈ b, c ≠ q.mark
  · rw [marks_marked other, marks_marked other]
  · have only : ∀ c ∈ b, c = q.mark := fun c member =>
      Decidable.byContradiction fun differs => other ⟨c, member, differs⟩
    rw [marks_of_left only left, marks_of_left only left]

theorem markStep_moves {q : Quoting} {c : Char} {s a t x : List Char} (h : Local read)
    (closes : Closes read) (made : markStep q c read (marked s a) = some (x, marked s t))
    (s' : List Char) : markStep q c read (marked s' a) = some (x, marked s' t) := by
  have drop : ∀ {k s}, k ≤ (c :: a).length →
      (c :: marked s a).drop k = marked s ((c :: a).drop k) := fun enough =>
    List.drop_append_of_le_length enough
  have three := markStep_closes closes made
  simp only [marked, List.length_cons, List.length_append] at three
  have left : (marks q (c :: marked s a)).length ≤ (c :: a).length := by
    unfold markStep at made
    split_ifs at made
    · have bounded := marks_length_le q (c :: marked s a)
      have length := congrArg (List.length ∘ Prod.snd) (Option.some.inj made)
      simp only [marked, Function.comp, List.length_cons, List.length_append, List.length_drop]
        at length bounded ⊢
      omega
    · rw [List.length_cons]
      omega
  have same : marks q (marked s' (c :: a)) = marks q (marked s (c :: a)) := marks_eq_of_left left s'
  rw [marked_cons, marked_cons] at same
  unfold markStep at made ⊢
  rw [same]
  split_ifs at made ⊢
  · rw [drop left, Option.some.injEq, Prod.mk.injEq, marked_inj] at made
    rw [drop left, made.1, made.2]
  · exact (verbatim?_local c h).moves s' made

theorem markStep_suffix {q : Quoting} {c : Char} {x rest : List Char} (h : Local read)
    (made : markStep q c read cs = some (x, rest)) : rest <:+ cs := by
  unfold markStep at made
  split_ifs at made with three
  · cases made
    obtain ⟨k, more⟩ := Nat.exists_eq_add_of_le' three
    rw [more]
    exact List.drop_suffix (k + 2) cs
  · exact (verbatim?_local c h).suffix made

theorem blockContent?_local (q : Quoting) (n : Nat) : Local (blockContent? q n) := by
  induction n with
  | zero => exact .fail
  | succ n ih =>
    refine .of_head rfl (blockContent?_cons q n) fun c => ?_
    split
    · exact ⟨markStep_suffix ih, fun s' made => markStep_moves ih (blockContent?_closes q n) made s'⟩
    · exact blockStep_local q c ih

/-- What a reader of a string does behind a mark that comes first: with a second one the string goes
over several lines, and without it is empty. -/
def markFirst? (q : Quoting) (cs : List Char) : Option (List Char × List Char) :=
  match cs with
  | [] => some ([], [])
  | d :: rest =>
    if d = q.mark then
      let rest := (lineBreak? rest).getD rest
      blockContent? q (rest.length + 1) rest
    else some ([], d :: rest)

theorem markFirst?_local (q : Quoting) : Local (markFirst? q) where
  suffix {cs x rest} made := by
    rcases cs with _ | ⟨d, cs⟩
    · cases made; exact List.suffix_rfl
    · simp only [markFirst?] at made
      split at made
      · exact suffix_cons (((blockContent?_local q _).suffix made).trans
          (lineBreak?_passes.getD.suffix rfl)) d
      · cases made; exact List.suffix_rfl
  moves {s a x t} s' made := by
    rcases a with _ | ⟨d, a⟩
    · simp only [marked_nil, markFirst?] at made ⊢
      split_ifs at made ⊢
      · have behind := ((blockContent?_local q _).suffix made).trans
          (lineBreak?_passes.getD.suffix rfl)
        exact absurd behind (not_marked_suffix t s)
      · rw [Option.some.injEq, Prod.mk.injEq, ← marked_nil, marked_inj] at made
        rw [← made.1, ← made.2, marked_nil]
    · simp only [marked_cons, markFirst?] at made ⊢
      split_ifs at made ⊢
      · have skipped : ∀ s, (lineBreak? (marked s a)).getD (marked s a) =
            marked s ((lineBreak? a).getD a) := fun s =>
          Option.some.inj (lineBreak?_passes.getD.stable a s)
        rw [skipped] at made ⊢
        exact (Local.fueled (blockContent?_local q) (blockContent?_frugal q)).moves s' made
      · rw [Option.some.injEq, Prod.mk.injEq, ← marked_cons, marked_inj] at made
        rw [← made.1, ← made.2, marked_cons]

theorem content?_cons (q : Quoting) (c : Char) (cs : List Char) :
    content? q (c :: cs) =
      if c = q.mark then markFirst? q cs else lineStep q c (lineContent? q (cs.length + 1)) cs := by
  by_cases mark : c = q.mark
  · rw [if_pos mark]
    rcases cs with _ | ⟨d, cs⟩
    · simp only [content?, lineContent?_cons, lineStep, if_pos mark]
      rfl
    · simp only [content?, markFirst?, mark, true_and]
      split
      · have shorter := (lineBreak?_passes.getD.suffix rfl : (lineBreak? cs).getD cs <:+ cs).length_le
        exact (blockContent?_frugal q).eq (by simp only [List.length_cons]; omega) (by omega)
      · rw [lineContent?_cons, lineStep, if_pos rfl]
  · rw [if_neg mark, ← lineContent?_cons]
    rcases cs with _ | ⟨d, cs⟩
    · rfl
    · simp [content?, mark]

theorem content?_local (q : Quoting) : Local (content? q) := by
  refine .of_head rfl (content?_cons q) fun c => ?_
  split
  · exact markFirst?_local q
  · refine Local.fueled (fun n => lineStep_local q c (lineContent?_local q n)) ?_
    intro n m cs r made enough
    exact lineStep_mono (fun left r ends one =>
      lineContent?_frugal q _ _ _ _ one (Nat.lt_of_le_of_lt ends.length_le enough)) made

end Content

end EventPipeline.Toml

import EventPipeline.Proofs.Toml.Local

/-! # Keys, values and statements look no further than they read

Keys, values and statements are made of readers that do not look behind a quotation mark that they
leave, and so do not look behind it either. All their loops take no more turns than there are
characters.
-/

namespace EventPipeline.Toml

variable {α : Type}

/-! ### Keys -/

/-- A key without marks, given its first character. -/
theorem bareKey_local (c : Char) : Local fun cs =>
    some (String.ofList (c :: cs.takeWhile isBareKey), cs.dropWhile isBareKey) := by
  have quote : isBareKey '"' = false := by decide
  refine Stops.local ⟨fun made => ?_, fun a s => ?_⟩
  · cases made
    exact List.dropWhile_suffix _
  · rw [takeWhile_marked s quote, dropWhile_marked s quote]
    rfl

theorem quoted_local (q : Quoting) : Local fun cs => lineContent? q (cs.length + 1) cs :=
  .fueled (lineContent?_local q) (lineContent?_frugal q)

/-- A key without dots, given its first character. -/
def keyBy? (c : Char) : List Char → Option (String × List Char) :=
  match Quoting.ofMark? c with
  | some q => fun cs => (lineContent? q (cs.length + 1) cs).map fun r => (String.ofList r.1, r.2)
  | none =>
    if isBareKey c then fun cs =>
      some (String.ofList (c :: cs.takeWhile isBareKey), cs.dropWhile isBareKey)
    else fun _ => none

theorem simpleKey?_cons (c : Char) (cs : List Char) : simpleKey? (c :: cs) = keyBy? c cs := by
  rw [simpleKey?, keyBy?]
  cases Quoting.ofMark? c with
  | some q => rfl
  | none =>
    cases bare : isBareKey c with
    | false => simp
    | true => simp [bare]

theorem simpleKey?_local : Local simpleKey? := by
  refine .of_head rfl simpleKey?_cons fun c => ?_
  unfold keyBy?
  split
  · next q _ => exact (quoted_local q).map String.ofList
  · split
    · exact bareKey_local c
    · exact .fail

/-- What is behind a key of several: a dot and the others, or nothing. -/
def furtherKeys? (more : List Char → Option (List String × List Char)) (key : String)
    (cs : List Char) : Option (List String × List Char) :=
  match cs with
  | '.' :: rest => more rest >>= fun keys => pure (key :: keys.1, keys.2)
  | rest => pure ([key], rest)

theorem furtherKeys?_local {more : List Char → Option (List String × List Char)} (h : Local more)
    (key : String) : Local (furtherKeys? more key) := by
  refine .after (c := '.') (fun _ => rfl) (fun cs absent => ?_)
    (h.bind fun keys => (Stops.answer (some (key :: keys))).local) (Stops.answer (some [key])).local
  unfold furtherKeys?
  split
  · exact absurd (by simp) absent
  · rfl

theorem keys?_succ (n : Nat) (cs : List Char) :
    keys? (n + 1) cs = simpleKey? (skipBlanks cs) >>= fun key =>
      furtherKeys? (keys? n) key.1 (skipBlanks key.2) := rfl

theorem keys?_local (n : Nat) : Local (keys? n) := by
  induction n with
  | zero => exact .fail
  | succ n ih => exact simpleKey?_local.blanks.bind fun key => (furtherKeys?_local ih key).blanks

theorem path?_eq (cs : List Char) :
    path? cs = keys? maxDepth cs >>= fun keys =>
      (keys.1.getLast?.map fun key => (keys.1.dropLast, key)) >>= fun path => pure (path, keys.2) := by
  rw [path?]
  cases keys? maxDepth cs with
  | none => rfl
  | some keys => simp only [Option.bind_eq_bind, Option.bind_some, Option.bind_map]; rfl

theorem path?_local : Local path? := by
  rw [funext path?_eq]
  exact (keys?_local maxDepth).bind fun keys =>
    (Stops.answer (keys.getLast?.map fun key => (keys.dropLast, key))).local

/-! ### Arrays -/

section Values

variable {value? : List Char → Option (Value × List Char)}

/-- What is behind an item: a comma and the items after it, or the closing bracket. -/
def furtherItems? (more : List Char → Option (List Value × List Char)) (v : Value) (cs : List Char) :
    Option (List Value × List Char) :=
  match cs with
  | ',' :: rest => more rest >>= fun vs => pure (v :: vs.1, vs.2)
  | ']' :: rest => pure ([v], rest)
  | _ => none

/-- Items where no blanks come first. -/
def itemsFrom? (value? : List Char → Option (Value × List Char))
    (more : List Char → Option (List Value × List Char)) (cs : List Char) :
    Option (List Value × List Char) :=
  match cs with
  | ']' :: rest => some ([], rest)
  | cs => value? cs >>= fun v => furtherItems? more v.1 (skipFiller false v.2)

theorem items?_succ (n : Nat) (cs : List Char) :
    items? value? (n + 1) cs = itemsFrom? value? (items? value? n) (skipFiller false cs) := rfl

/-- The closing bracket behind the last item. -/
def lastItem? (v : Value) (cs : List Char) : Option (List Value × List Char) :=
  match cs with
  | ']' :: rest => some ([v], rest)
  | _ => none

theorem lastItem?_local (v : Value) : Local (lastItem? v) := by
  refine .after (c := ']') (fun _ => rfl) (fun cs absent => ?_) (Stops.answer (some [v])).local .fail
  unfold lastItem?
  split
  · exact absurd (by simp) absent
  · rfl

theorem furtherItems?_of_last (more : List Char → Option (List Value × List Char)) (v : Value)
    {cs : List Char} (absent : ¬[','] <+: cs) : furtherItems? more v cs = lastItem? v cs := by
  unfold furtherItems?
  split
  · exact absurd (by simp) absent
  · rfl
  · unfold lastItem?
    split <;> simp_all

theorem furtherItems?_local {more : List Char → Option (List Value × List Char)} (h : Local more)
    (v : Value) : Local (furtherItems? more v) :=
  .after (c := ',') (fun _ => rfl) (fun _ absent => furtherItems?_of_last more v absent)
    (h.bind fun vs => (Stops.answer (some (v :: vs))).local) (lastItem?_local v)

theorem itemsFrom?_of_open (more : List Char → Option (List Value × List Char)) {cs : List Char}
    (absent : ¬[']'] <+: cs) : itemsFrom? value? more cs =
      value? cs >>= fun v => furtherItems? more v.1 (skipFiller false v.2) := by
  unfold itemsFrom?
  split
  · exact absurd (by simp) absent
  · rfl

theorem items?_local (h : Local value?) (n : Nat) : Local (items? value? n) := by
  induction n with
  | zero => exact .fail
  | succ n ih =>
    refine Local.filler (.after (c := ']') (fun _ => rfl)
      (fun cs absent => itemsFrom?_of_open _ absent) (Stops.answer (some [])).local ?_)
    exact h.bind fun v => (furtherItems?_local ih v).filler

theorem items?_frugal (h : Local value?) : Frugal (items? value?) := by
  refine .of_step (fun more cs => itemsFrom? value? more (skipFiller false cs)) (fun _ => rfl)
    items?_succ fun {cs r more more'} each made => ?_
  by_cases closed : [']'] <+: skipFiller false cs
  · obtain ⟨rest, closed⟩ := closed
    rw [← closed] at made ⊢
    exact made
  · rw [itemsFrom?_of_open _ closed] at made ⊢
    obtain ⟨⟨v, left⟩, one, made⟩ := Option.bind_eq_some_iff.mp made
    refine Option.bind_eq_some_iff.mpr ⟨⟨v, left⟩, one, ?_⟩
    by_cases comma : [','] <+: skipFiller false left
    · obtain ⟨rest, comma⟩ := comma
      have shorter : rest.length < cs.length := by
        have item := (h.suffix one).trans (skipFiller_suffix false cs) |>.length_le
        have filler := (skipFiller_suffix false left).length_le
        rw [← comma] at filler
        simp only [List.cons_append, List.nil_append, List.length_cons] at filler
        omega
      rw [← comma] at made ⊢
      obtain ⟨vs, others, made⟩ := Option.bind_eq_some_iff.mp made
      exact Option.bind_eq_some_iff.mpr ⟨vs, each _ _ shorter others, made⟩
    · rw [furtherItems?_of_last _ _ comma] at made ⊢
      exact made

/-! ### Tables between braces -/

theorem assignment?_eq (cs : List Char) :
    assignment? value? cs = path? cs >>= fun path => after? '=' path.2 >>= fun cs =>
      (value? (skipBlanks cs)).map fun v => ((path.1.1, path.1.2, v.1), v.2) := by
  rw [assignment?]
  cases path? cs with
  | none => rfl
  | some path =>
    simp only [Option.bind_eq_bind, Option.bind_some, Option.map_eq_bind]
    rfl

theorem assignment?_local (h : Local value?) : Local (assignment? value?) := by
  rw [funext assignment?_eq]
  exact path?_local.bind fun path => (after?_passes (by decide)).local.bind
    (h.blanks.map fun v => (path.1, path.2, v))

/-- What is behind a member: a comma and the members after it, or the closing brace. -/
def furtherMembers? (more : List Char → Option (Members × List Char)) (ms : Members)
    (cs : List Char) : Option (Members × List Char) :=
  match cs with
  | ',' :: rest => more rest
  | '\x7d' :: rest => pure (ms, rest)
  | _ => none

theorem inlineMembers?_succ (n : Nat) (ms : Members) (cs : List Char) :
    inlineMembers? value? (n + 1) ms cs = assignment? value? cs >>= fun m =>
      Members.assign m.1.2.2 m.1.2.1 m.1.1 ms >>= fun ms =>
        furtherMembers? (inlineMembers? value? n ms) ms (skipBlanks m.2) := rfl

/-- The closing brace behind the last member. -/
def lastMember? (ms : Members) (cs : List Char) : Option (Members × List Char) :=
  match cs with
  | '\x7d' :: rest => some (ms, rest)
  | _ => none

theorem lastMember?_local (ms : Members) : Local (lastMember? ms) := by
  refine .after (c := '\x7d') (fun _ => rfl) (fun cs absent => ?_)
    (Stops.answer (some ms)).local .fail
  unfold lastMember?
  split
  · exact absurd (by simp) absent
  · rfl

theorem furtherMembers?_of_last (more : List Char → Option (Members × List Char)) (ms : Members)
    {cs : List Char} (absent : ¬[','] <+: cs) : furtherMembers? more ms cs = lastMember? ms cs := by
  unfold furtherMembers?
  split
  · exact absurd (by simp) absent
  · rfl
  · unfold lastMember?
    split <;> simp_all

theorem furtherMembers?_local {more : List Char → Option (Members × List Char)} (h : Local more)
    (ms : Members) : Local (furtherMembers? more ms) :=
  .after (c := ',') (fun _ => rfl) (fun _ absent => furtherMembers?_of_last more ms absent) h
    (lastMember?_local ms)

theorem inlineMembers?_local (h : Local value?) (n : Nat) (ms : Members) :
    Local (inlineMembers? value? n ms) := by
  induction n generalizing ms with
  | zero => exact .fail
  | succ n ih =>
    exact (assignment?_local h).bind fun m => .given (Members.assign m.2.2 m.2.1 m.1 ms) fun ms =>
      (furtherMembers?_local (ih ms) ms).blanks

theorem inlineMembers?_frugal (h : Local value?) {n m : Nat} {ms : Members} {cs : List Char}
    {r : Members × List Char} (made : inlineMembers? value? n ms cs = some r)
    (enough : cs.length < m) : inlineMembers? value? m ms cs = some r := by
  induction n generalizing m ms cs with
  | zero => cases made
  | succ n ih =>
    obtain ⟨m, rfl⟩ := Nat.exists_eq_add_one_of_ne_zero (show m ≠ 0 by omega)
    rw [inlineMembers?_succ] at made ⊢
    obtain ⟨⟨⟨path, key, v⟩, left⟩, one, made⟩ := Option.bind_eq_some_iff.mp made
    obtain ⟨ms', assigned, made⟩ := Option.bind_eq_some_iff.mp made
    refine Option.bind_eq_some_iff.mpr ⟨_, one, Option.bind_eq_some_iff.mpr ⟨ms', assigned, ?_⟩⟩
    by_cases comma : [','] <+: skipBlanks left
    · obtain ⟨rest, comma⟩ := comma
      have shorter : rest.length < m := by
        have member := ((assignment?_local h).suffix one).length_le
        have blanks := (skipBlanks_suffix left).length_le
        rw [← comma] at blanks
        simp only [List.cons_append, List.nil_append, List.length_cons] at blanks
        omega
      simp only [← comma] at made ⊢
      exact ih made shorter
    · rw [furtherMembers?_of_last _ _ comma] at made ⊢
      exact made

end Values

/-! ### Values -/

/-- An array behind its opening bracket. -/
def array? (depth : Nat) (cs : List Char) : Option (Value × List Char) :=
  match depth with
  | 0 => none
  | depth + 1 =>
    (items? (value? depth) (cs.length + 1) cs).map fun r => (.array false r.1, r.2)

/-- A table behind its opening brace. -/
def table? (depth : Nat) (cs : List Char) : Option (Value × List Char) :=
  match depth with
  | 0 => none
  | depth + 1 =>
    match skipBlanks cs with
    | '\x7d' :: rest => some (.table .inline [], rest)
    | _ =>
      (inlineMembers? (value? depth) (cs.length + 1) [] cs).map fun r => (.table .inline r.1, r.2)

theorem value?_cons (depth : Nat) (c : Char) (cs : List Char) :
    value? depth (c :: cs) =
      if c = '[' then array? depth cs else if c = '\x7b' then table? depth cs else scalar? c cs := by
  cases depth <;> rfl

theorem array?_local {depth : Nat} (h : ∀ d < depth, Local (value? d)) : Local (array? depth) := by
  cases depth with
  | zero => exact .fail
  | succ depth =>
    have inner := h depth (Nat.lt_succ_self _)
    exact (Local.fueled (items?_local inner) (items?_frugal inner)).map (Value.array false)

theorem table?_of_members {depth : Nat} {cs : List Char} (absent : ¬['\x7d'] <+: skipBlanks cs) :
    table? (depth + 1) cs =
      (inlineMembers? (value? depth) (cs.length + 1) [] cs).map fun r => (.table .inline r.1, r.2) := by
  rw [table?]
  split
  · next closed => exact absurd (by rw [closed]; simp) absent
  · rfl

theorem table?_of_empty {depth : Nat} {cs rest : List Char} (h : skipBlanks cs = '\x7d' :: rest) :
    table? (depth + 1) cs = some (.table .inline [], rest) := by
  simp only [table?, h]

theorem table?_local {depth : Nat} (h : ∀ d < depth, Local (value? d)) : Local (table? depth) := by
  cases depth with
  | zero => exact .fail
  | succ depth =>
    have inner := h depth (Nat.lt_succ_self _)
    have members := (Local.fueled (fun n => inlineMembers?_local inner n [])
      fun _ _ _ _ made enough => inlineMembers?_frugal inner made enough).map (Value.table .inline)
    refine ⟨fun {cs x rest} made => ?_, fun {s a x t} s' made => ?_⟩
    · by_cases closed : ['\x7d'] <+: skipBlanks cs
      · obtain ⟨left, closed⟩ := closed
        rw [table?_of_empty closed.symm] at made
        cases made
        exact (List.suffix_cons ..).trans (closed ▸ skipBlanks_suffix cs)
      · rw [table?_of_members closed] at made
        exact members.suffix made
    · have quoteless : '"' ∉ ['\x7d'] := by decide
      by_cases closed : ['\x7d'] <+: skipBlanks a
      · obtain ⟨left, closed⟩ := closed
        have ends : ∀ s, skipBlanks (marked s a) = '\x7d' :: marked s left := fun s => by
          rw [skipBlanks_marked, ← closed]
          rfl
        rw [table?_of_empty (ends s), Option.some.injEq, Prod.mk.injEq, marked_inj] at made
        rw [table?_of_empty (ends s'), made.1, made.2]
      · have absent : ∀ s, ¬['\x7d'] <+: skipBlanks (marked s a) := fun s => by
          rwa [skipBlanks_marked, prefix_marked_iff s quoteless]
        rw [table?_of_members (absent s)] at made
        rw [table?_of_members (absent s')]
        exact members.moves s' made

theorem scalar?_suffix {c : Char} {cs rest : List Char} {x : Value}
    (made : scalar? c cs = some (x, rest)) : rest <:+ c :: cs := by
  unfold scalar? at made
  split at made
  · next q _ => exact suffix_cons (((content?_local q).map (Value.string ∘ String.ofList)).suffix made) c
  · split at made
    · exact number?_stops.suffix made
    · exact word?_stops.suffix made

theorem scalar?_moves {c : Char} {s a t : List Char} {x : Value}
    (made : scalar? c (marked s a) = some (x, marked s t)) (s' : List Char) :
    scalar? c (marked s' a) = some (x, marked s' t) := by
  unfold scalar? at made ⊢
  split at made
  · next q _ => exact ((content?_local q).map (Value.string ∘ String.ofList)).moves s' made
  · rw [← marked_cons] at made ⊢
    split_ifs at made ⊢
    · exact number?_stops.local.moves s' made
    · exact word?_stops.local.moves s' made

/-- A string, and all behind it, comes behind the mark that it starts with. -/
theorem value?_mark (depth : Nat) (cs : List Char) :
    value? depth ('"' :: cs) =
      (content? .basic cs).map fun r => (.string (String.ofList r.1), r.2) := by
  rw [value?_cons]
  rfl

theorem value?_local (depth : Nat) : Local (value? depth) := by
  induction depth using Nat.strongRecOn with
  | ind depth ih =>
    refine ⟨fun {cs x rest} made => ?_, fun {s a x t} s' made => ?_⟩
    · rcases cs with _ | ⟨c, cs⟩
      · cases depth <;> cases made
      · rw [value?_cons] at made
        split at made
        · exact suffix_cons ((array?_local ih).suffix made) c
        · split at made
          · exact suffix_cons ((table?_local ih).suffix made) c
          · exact scalar?_suffix made
    · rcases a with _ | ⟨c, a⟩
      · rw [marked_nil, value?_mark] at made
        have behind := ((content?_local .basic).map (Value.string ∘ String.ofList)).suffix made
        exact absurd behind (not_marked_suffix t s)
      · rw [marked_cons, value?_cons] at made ⊢
        split_ifs at made ⊢
        · exact (array?_local ih).moves s' made
        · exact (table?_local ih).moves s' made
        · exact scalar?_moves made s'

/-! ### Statements -/

theorem bracket_passes : Passes (after? ']') := after?_passes (by decide)

/-- A header behind its bracket. -/
def tableHeader? (cs : List Char) : Option (Statement × List Char) :=
  path? cs >>= fun path => after? ']' path.2 >>= fun rest =>
    some (.table path.1.1 path.1.2) >>= fun s => pure (s, rest)

/-- A header of an array of tables behind its two brackets. -/
def itemHeader? (cs : List Char) : Option (Statement × List Char) :=
  path? cs >>= fun path => after? ']' path.2 >>= fun rest => after? ']' rest >>= fun rest =>
    some (.item path.1.1 path.1.2) >>= fun s => pure (s, rest)

/-- A statement that is no header. -/
def keyValue? (cs : List Char) : Option (Statement × List Char) :=
  (assignment? (value? maxDepth) cs).map fun r => (.assign r.1.1 r.1.2.1 r.1.2.2, r.2)

theorem tableHeader?_local : Local tableHeader? :=
  path?_local.bind fun path => bracket_passes.local.bind
    (Stops.answer (some (Statement.table path.1 path.2))).local

theorem itemHeader?_local : Local itemHeader? :=
  path?_local.bind fun path => bracket_passes.local.bind <| bracket_passes.local.bind
    (Stops.answer (some (Statement.item path.1 path.2))).local

theorem keyValue?_local : Local keyValue? :=
  (assignment?_local (value?_local maxDepth)).map fun r => Statement.assign r.1 r.2.1 r.2.2

theorem statement?_item (cs : List Char) : statement? ('[' :: '[' :: cs) = itemHeader? cs := rfl

theorem statement?_table {cs : List Char} (single : ¬['['] <+: cs) :
    statement? ('[' :: cs) = tableHeader? cs := by
  unfold statement?
  split
  · next same => cases same; exact absurd (by simp) single
  · next same => cases same; rfl
  · next other => exact absurd rfl (other cs)

theorem statement?_keyValue {cs : List Char} (absent : ¬['['] <+: cs) :
    statement? cs = keyValue? cs := by
  unfold statement? keyValue?
  split
  · exact absurd (by simp) absent
  · exact absurd (by simp) absent
  · rw [Option.map_eq_bind]
    rfl

theorem statement?_local : Local statement? := by
  refine .after (c := '[') (f := fun cs => statement? ('[' :: cs)) (fun _ => rfl)
    (fun _ absent => statement?_keyValue absent) ?_ keyValue?_local
  exact .after (c := '[') statement?_item (fun _ single => statement?_table single)
    itemHeader?_local tableHeader?_local

/-- The statements from one line on, given what reads the lines after it. -/
def statementsFrom? (more : List Char → Option (List Statement)) (cs : List Char) :
    Option (List Statement) :=
  match cs with
  | [] => some []
  | c :: rest =>
    if c = '#' ∨ c = '\n' ∨ c = '\r' then (lineEnd? (c :: rest)).bind more
    else statement? (c :: rest) >>= fun s => lineEnd? s.2 >>= fun rest => more rest >>= fun others =>
      pure (s.1 :: others)

theorem statements?_succ (n : Nat) (cs : List Char) :
    statements? (n + 1) cs = statementsFrom? (statements? n) (skipBlanks cs) := rfl

/-- After a line there is less than a text with a character in it. -/
theorem lineEnd?_shorter {c : Char} {cs left rest : List Char} (ends : left <:+ c :: cs)
    (made : lineEnd? left = some rest) : rest.length < (c :: cs).length := by
  have behind := ((afterComment_suffix _).trans (skipBlanks_suffix left)).trans ends |>.length_le
  rw [lineEnd?_eq] at made
  cases found : afterComment (skipBlanks left) with
  | nil =>
    rw [found] at made
    cases made
    exact Nat.zero_lt_succ _
  | cons d more =>
    rw [found] at made behind
    rcases lineBreak?_eq_some made with same | same <;>
      simp only [same, List.length_cons] at behind ⊢ <;> omega

theorem statements?_frugal : Frugal statements? := by
  refine .of_step (fun more cs => statementsFrom? more (skipBlanks cs)) (fun _ => rfl) statements?_succ
    fun {cs r more more'} each made => ?_
  have whole := (skipBlanks_suffix cs).length_le
  cases found : skipBlanks cs with
  | nil =>
    rw [found] at made
    exact made
  | cons c rest =>
    simp only [found] at made whole ⊢
    simp only [statementsFrom?] at made ⊢
    split_ifs at made ⊢
    · obtain ⟨left, ended, others⟩ := Option.bind_eq_some_iff.mp made
      have shorter := lineEnd?_shorter List.suffix_rfl ended
      exact Option.bind_eq_some_iff.mpr ⟨left, ended, each _ _ (by omega) others⟩
    · obtain ⟨⟨s, left⟩, one, made⟩ := Option.bind_eq_some_iff.mp made
      obtain ⟨left', ended, made⟩ := Option.bind_eq_some_iff.mp made
      obtain ⟨others, further, made⟩ := Option.bind_eq_some_iff.mp made
      have shorter := lineEnd?_shorter (statement?_local.suffix one) ended
      exact Option.bind_eq_some_iff.mpr ⟨(s, left), one, Option.bind_eq_some_iff.mpr
        ⟨left', ended, Option.bind_eq_some_iff.mpr ⟨others, each _ _ (by omega) further, made⟩⟩⟩

end EventPipeline.Toml

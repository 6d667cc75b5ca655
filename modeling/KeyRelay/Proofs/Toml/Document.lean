import KeyRelay.Proofs.Toml.Number
import KeyRelay.Proofs.Toml.Quoted

/-! # Documents are read by the rules

Each line of settings is one statement, blank lines and comments are none, and every statement
adds to the table opened last. What is needed for that is that no key stands twice in one
table. -/
set_option autoImplicit false

namespace KeyRelay.Toml

open Standard

/-! ## Lines -/

theorem skipBlanks_cons {c : Char} (solid : isBlank c = false) (rest : List Char) :
    skipBlanks (c :: rest) = c :: rest := by
  rw [skipBlanks, List.dropWhile_cons, if_neg (by simp [solid])]

theorem skipBlanks_blank {blank : List Char} (all : Blank blank) (rest : List Char) :
    skipBlanks (blank ++ rest) = skipBlanks rest := by
  refine List.dropWhile_append_of_pos fun c member => ?_
  rcases all c member with rfl | rfl <;> rfl

/-- No blank stands in front of a value. -/
theorem skipBlanks_written {code : List Char} {value : Value} (written : Written code value)
    (rest : List Char) : skipBlanks (code ++ rest) = code ++ rest := by
  cases written with
  | string quoted =>
    rcases head?_quoted quoted with ⟨more, rfl⟩ | ⟨more, rfl⟩
    all_goals exact skipBlanks_cons (by decide) _
  | integer decimals small =>
    obtain ⟨c, more, same, digit⟩ := front_decimals decimals
    have solid : isBlank c = false := by
      have space := ne_of_accepts digit (by decide : Text.isDigit ' ' = false)
      have tab := ne_of_accepts digit (by decide : Text.isDigit '\t' = false)
      simp [isBlank, space, tab]
    rw [same, List.cons_append]
    exact skipBlanks_cons solid _

theorem value?_written (depth : Nat) {code : List Char} {value : Value}
    (written : Written code value) (rest : List Char) :
    value? depth (code ++ '\n' :: rest) = some (value, '\n' :: rest) := by
  cases written with
  | string quoted => exact value?_quoted depth quoted rest
  | integer decimals small => exact value?_digits depth decimals small rest

/-- The first character of a bare key and the others. -/
theorem exists_bareKey {key : String} (bare : BareKey key) :
    ∃ c more, key.toList = c :: more ∧ ∀ d ∈ c :: more, isBareKeyChar d = true := by
  obtain ⟨filled, all⟩ := bare
  obtain ⟨c, more, same⟩ := List.exists_cons_of_ne_nil filled
  rw [same] at all
  refine ⟨c, more, same, fun d member => ?_⟩
  rcases all d member with letter | rfl | rfl
  · simp [isBareKeyChar, letter]
  · rfl
  · rfl

/-- A bare key up to a mark that ends it. -/
theorem dottedKey?_bare {key : String} (bare : BareKey key) {mark : Char} {rest left : List Char}
    (ends : isBareKeyChar mark = false) (behind : skipBlanks (mark :: rest) = left)
    (noDot : left.head? ≠ some '.') :
    dottedKey? (key.toList ++ mark :: rest) = some ([key], left) := by
  obtain ⟨c, more, same, all⟩ := exists_bareKey bare
  have front : isBareKeyChar c = true := all c List.mem_cons_self
  have solid : isBlank c = false := by
    have space := ne_of_accepts front (by decide : isBareKeyChar ' ' = false)
    have tab := ne_of_accepts front (by decide : isBareKeyChar '\t' = false)
    simp [isBlank, space, tab]
  have taken : (c :: more ++ mark :: rest).takeWhile isBareKeyChar = c :: more := by
    rw [List.takeWhile_append_of_pos all]
    simp [ends]
  have dropped : (c :: more ++ mark :: rest).dropWhile isBareKeyChar = mark :: rest := by
    rw [List.dropWhile_append_of_pos all]
    simp [ends]
  have name : String.ofList (c :: more) = key := by rw [← same, String.ofList_toList]
  have simple : simpleKey? (c :: more ++ mark :: rest) = some (key, mark :: rest) := by
    rw [List.cons_append] at taken dropped ⊢
    rw [simpleKey?, taken, dropped]
    · simp only [name]
    · intro behind quote
      exact ne_of_accepts front (by decide) (List.cons.inj quote).1
    · intro behind quote
      exact ne_of_accepts front (by decide) (List.cons.inj quote).1
  rw [dottedKey?, maxKeyParts, keyParts?, same]
  rw [List.cons_append, skipBlanks_cons solid, ← List.cons_append, simple, Option.bind_eq_bind,
    Option.bind_some]
  dsimp only
  rw [behind]
  split
  next => exact absurd rfl noDot
  next => rfl

theorem dottedKey?_blank {key : String} (bare : BareKey key) {blank : List Char}
    (all : Blank blank) (rest : List Char) :
    dottedKey? (key.toList ++ (blank ++ '=' :: rest)) = some ([key], '=' :: rest) := by
  have behind : skipBlanks (blank ++ '=' :: rest) = '=' :: rest := by
    rw [skipBlanks_blank all, skipBlanks_cons (by decide)]
  cases blank with
  | nil => exact dottedKey?_bare bare (by decide) behind (by simp)
  | cons c blank =>
    have ends : isBareKeyChar c = false := by
      rcases all c List.mem_cons_self with rfl | rfl <;> rfl
    exact dottedKey?_bare bare ends behind (by simp)

theorem statements?_statement {c : Char} (front : isBareKeyChar c = true ∨ c = '[')
    {text rest : List Char} {statement : Statement}
    (read : statement? (c :: text) = some (statement, '\n' :: rest)) (more : Nat) :
    statements? (more + 1) (c :: text) =
      (statements? more rest).map fun statements => statement :: statements := by
  have others : ∀ other, isBareKeyChar other = false → other ≠ '[' → c ≠ other := by
    intro other noKey noHeader
    rcases front with bare | rfl
    · exact ne_of_accepts bare noKey
    · exact noHeader.symm
  have solid : isBlank c = false := by
    have space := others ' ' (by decide) (by decide)
    have tab := others '\t' (by decide) (by decide)
    simp [isBlank, space, tab]
  have finished : finishLine? ('\n' :: rest) = some rest := rfl
  rw [statements?, skipBlanks_cons solid]
  split
  next same => cases same
  next same => exact absurd (List.cons.inj same).1 (others '#' (by decide) (by decide))
  next same => exact absurd (List.cons.inj same).1 (others '\n' (by decide) (by decide))
  next same => exact absurd (List.cons.inj same).1 (others '\r' (by decide) (by decide))
  next =>
    simp only [read, Option.bind_eq_bind, Option.bind_some, finished]
    cases statements? more rest <;> rfl

theorem statements?_comment {body : List Char} (plain : ∀ c ∈ body, Plain c) (more : Nat)
    (rest : List Char) :
    statements? (more + 1) ('#' :: (body ++ '\n' :: rest)) = statements? more rest := by
  have skipped : (body ++ '\n' :: rest).dropWhile isPlain = '\n' :: rest := by
    rw [List.dropWhile_append_of_pos fun c member => isPlain_iff.mpr (plain c member)]
    rfl
  have finished : finishLine? ('#' :: (body ++ '\n' :: rest)) = some rest := by
    rw [finishLine?, skipBlanks_cons (by decide), skipComment, skipped]
    rfl
  rw [statements?, skipBlanks_cons (by decide)]
  simp only [finished, Option.bind_eq_bind, Option.bind_some]

theorem statements?_setting {key : String} {before after code : List Char} {value : Value}
    (bare : BareKey key) (front : Blank before) (behind : Blank after)
    (written : Written code value) (more : Nat) (rest : List Char) :
    statements? (more + 1) (key.toList ++ (before ++ '=' :: (after ++ (code ++ '\n' :: rest)))) =
      (statements? more rest).map fun statements => .assign [key] value :: statements := by
  have assigned : assignment? (value? maxDepth)
      (key.toList ++ (before ++ '=' :: (after ++ (code ++ '\n' :: rest)))) =
        some ([key], value, '\n' :: rest) := by
    rw [assignment?, dottedKey?_blank bare front]
    simp only [Option.bind_eq_bind, Option.bind_some, skipBlanks_blank behind,
      skipBlanks_written written, value?_written maxDepth written, Option.pure_def]
  obtain ⟨c, letters, same, all⟩ := exists_bareKey bare
  have letter : isBareKeyChar c = true := all c List.mem_cons_self
  rw [same, List.cons_append] at assigned ⊢
  refine statements?_statement (.inl letter) ?_ more
  rw [statement?, assigned]
  · rfl
  · exact fun _ equal => ne_of_accepts letter (by decide) (List.cons.inj equal).1
  · exact fun _ equal => ne_of_accepts letter (by decide) (List.cons.inj equal).1

theorem statements?_header {key : String} (bare : BareKey key) (more : Nat) (rest : List Char) :
    statements? (more + 1) ('[' :: (key.toList ++ ']' :: '\n' :: rest)) =
      (statements? more rest).map fun statements => .table [key] :: statements := by
  have path : dottedKey? (key.toList ++ ']' :: '\n' :: rest) = some ([key], ']' :: '\n' :: rest) :=
    dottedKey?_bare bare (by decide) rfl (by simp)
  refine statements?_statement (.inr rfl) ?_ more
  rw [statement?, path]
  · rfl
  · intro behind equal
    obtain ⟨c, letters, same, all⟩ := exists_bareKey bare
    rw [same] at equal
    exact ne_of_accepts (all c List.mem_cons_self) (by decide) (List.cons.inj equal).1

/-! ## Texts -/

/-- A text is these statements. Each takes up some of it, so that its length bounds the
number of steps. -/
def ReadsAs (text : List Char) (statements : List Statement) : Prop :=
  ∀ more, text.length < more → statements? more text = some statements

theorem readsAs_nil : ReadsAs [] [] := by
  intro more enough
  obtain ⟨more, rfl⟩ := Nat.exists_eq_add_one.mpr enough
  rfl

/-- A line in front of a text takes one step, and leaves the text and the steps for it. -/
theorem ReadsAs.line {line text : List Char} {statements : List Statement}
    (first : List Statement) (reads : ReadsAs text statements) (shorter : text.length < line.length)
    (step : ∀ more, statements? (more + 1) line =
      (statements? more text).map fun statements => first ++ statements) :
    ReadsAs line (first ++ statements) := by
  intro more enough
  obtain ⟨more, rfl⟩ := Nat.exists_eq_add_one.mpr (Nat.zero_lt_of_lt enough)
  rw [step, reads more (by omega), Option.map_some]

theorem ReadsAs.statement {c : Char} {text rest : List Char} {statement : Statement}
    {statements : List Statement} (reads : ReadsAs rest statements)
    (front : isBareKeyChar c = true ∨ c = '[')
    (read : statement? (c :: text) = some (statement, '\n' :: rest))
    (shorter : rest.length < (c :: text).length) :
    ReadsAs (c :: text) (statement :: statements) :=
  reads.line [statement] shorter fun more => statements?_statement front read more

theorem ReadsAs.blankLine {text : List Char} {statements : List Statement}
    (reads : ReadsAs text statements) : ReadsAs ('\n' :: text) statements := by
  refine reads.line [] (Nat.lt_succ_self _) fun more => ?_
  simp only [List.nil_append, Option.map_id']
  rfl

def assigning (entry : String × Value) : Statement :=
  .assign [entry.1] entry.2

theorem ReadsAs.assignments {text behind : List Char} {entries : Table}
    {statements : List Statement} (settings : Assignments text entries)
    (reads : ReadsAs behind statements) :
    ReadsAs (text ++ behind) (entries.map assigning ++ statements) := by
  induction settings with
  | nil => exact reads
  | blankLine _ ih => exact ih.blankLine
  | comment plain _ ih =>
    rw [List.cons_append, List.append_assoc, List.cons_append]
    exact ih.line [] (by simp; omega) fun more => by
      rw [statements?_comment plain]
      simp
  | setting bare front behind written _ ih =>
    simp only [List.append_assoc, List.cons_append]
    exact ih.line [.assign _ _] (by simp; omega)
      fun more => statements?_setting bare front behind written more _

/-! ## Drafts -/

namespace Draft

theorem node?_eq_none {draft : Draft} {key : String} (absent : key ∉ draft.map Prod.fst) :
    draft.node? key = none := by
  rw [node?, List.lookup_eq_none_iff]
  intro entry member
  have other : key ≠ entry.1 := fun same => absent (same ▸ List.mem_map_of_mem member)
  simpa using other

theorem node?_last {front : Draft} {key : String} (absent : key ∉ front.map Prod.fst)
    (node : Node) : node? (front ++ [(key, node)]) key = some node := by
  have unfound : List.lookup key front = none := node?_eq_none absent
  rw [node?, List.lookup_append, unfound, Option.none_or, List.lookup_cons_self]

theorem replace_last {front : Draft} {key : String} (absent : key ∉ front.map Prod.fst)
    (before after : Node) :
    replace (front ++ [(key, before)]) key after = front ++ [(key, after)] := by
  have kept : ∀ entry ∈ front, (if entry.1 = key then (key, after) else entry) = id entry := by
    intro entry member
    exact if_neg fun (same : entry.1 = key) => absent (same ▸ List.mem_map_of_mem member)
  rw [replace, List.map_append, List.map_congr_left kept, List.map_id, List.map_cons, List.map_nil,
    if_pos rfl]

theorem assign_new {draft : Draft} {key : String} (absent : key ∉ draft.map Prod.fst)
    (value : Value) : assign true [key] value draft = some (draft ++ [(key, .value value)]) := by
  rw [assign, node?_eq_none absent]
  rfl

theorem openTable_new {draft : Draft} {key : String} (absent : key ∉ draft.map Prod.fst) :
    openTable key draft = some (draft ++ [(key, .table .header [])]) := by
  rw [openTable, node?_eq_none absent]
  rfl

/-- What is changed in the last table changes nothing else. -/
theorem modifyAt_last {front : Draft} {key : String} (absent : key ∉ front.map Prod.fst)
    (effect : Draft → Option Draft) (below : Draft) :
    modifyAt [key] effect (front ++ [(key, .table .header below)]) =
      (effect below).map fun changed => front ++ [(key, .table .header changed)] := by
  rw [modifyAt, node?_last absent]
  simp only [modifyAt]
  cases effect below with
  | none => rfl
  | some changed => rw [Option.map_some, Option.map_some, replace_last absent]

/-- An entry with a finished value. -/
def leaf (entry : String × Value) : String × Node :=
  (entry.1, .value entry.2)

theorem finish_append (front behind : Draft) :
    finish (front ++ behind) = finish front ++ finish behind := by
  induction front with
  | nil => rfl
  | cons entry front ih => rw [List.cons_append, finish, finish, ih, List.cons_append]

theorem finish_leaves (entries : Table) : finish (entries.map leaf) = entries := by
  induction entries with
  | nil => rfl
  | cons entry entries ih => rw [List.map_cons, leaf, finish, Node.finish, ih]

theorem keys_finish (draft : Draft) : (finish draft).map Prod.fst = draft.map Prod.fst := by
  induction draft with
  | nil => rfl
  | cons entry draft ih => rw [finish, List.map_cons, List.map_cons, ih]

end Draft

/-! ## Documents -/

theorem not_mem_of_nodup_append {α : Type} {front behind : List α} {item : α}
    (distinct : (front ++ item :: behind).Nodup) : item ∉ front :=
  fun member => (List.nodup_append.mp distinct).2.2 item member item List.mem_cons_self rfl

/-- Settings are added to the table opened last, wherever it has its place. -/
theorem carryOut_assigning {current : List String} {place : Draft → Draft}
    (focus : ∀ effect below, (place below).modifyAt current effect = (effect below).map place)
    (entries : Table) (rest : List Statement) (below : Draft)
    (distinct : (below.map Prod.fst ++ entries.map Prod.fst).Nodup) :
    carryOut current (entries.map assigning ++ rest) (place below) =
      carryOut current rest (place (below ++ entries.map Draft.leaf)) := by
  induction entries generalizing below with
  | nil => rw [List.map_nil, List.map_nil, List.nil_append, List.append_nil]
  | cons entry entries ih =>
    have absent : entry.1 ∉ below.map Prod.fst := not_mem_of_nodup_append distinct
    have grown : ((below ++ [Draft.leaf entry]).map Prod.fst ++ entries.map Prod.fst).Nodup := by
      simpa [Draft.leaf] using distinct
    rw [List.map_cons, List.map_cons, List.cons_append, assigning, carryOut, focus,
      Draft.assign_new absent]
    simp only [Option.bind_eq_bind, Option.map_some, Option.bind_some]
    rw [← Draft.leaf, ih _ grown, List.append_assoc, List.singleton_append]

/-- Sections add one table after the other. -/
theorem sections_carriedOut {text : List Char} {tables : Table} (sections : Sections text tables) :
    ∃ statements, ReadsAs text statements ∧
      ∀ current root, (root.map Prod.fst ++ tables.map Prod.fst).Nodup →
        ∃ draft, carryOut current statements root = some draft ∧
          draft.finish = root.finish ++ tables := by
  induction sections with
  | nil => exact ⟨[], readsAs_nil, fun _ root _ => ⟨root, rfl, (List.append_nil _).symm⟩⟩
  | blankLine _ ih =>
    obtain ⟨statements, reads, carried⟩ := ih
    exact ⟨statements, reads.blankLine, carried⟩
  | @part key body rest entries tables bare settings distinct _ ih =>
    obtain ⟨statements, reads, carried⟩ := ih
    refine ⟨.table [key] :: (entries.map assigning ++ statements), ?_, ?_⟩
    · exact (ReadsAs.assignments settings reads).line [.table [key]] (by simp; omega)
        fun more => statements?_header bare more _
    · intro current root free
      have absent : key ∉ root.map Prod.fst := not_mem_of_nodup_append free
      have opened : root.modifyAt [] (Draft.openTable key) =
          some (root ++ [(key, .table .header [])]) := Draft.openTable_new absent
      have filled := carryOut_assigning (Draft.modifyAt_last absent) entries statements []
        (by simpa using distinct)
      obtain ⟨draft, last, same⟩ := carried [key]
        (root ++ [(key, .table .header (entries.map Draft.leaf))]) (by simpa using free)
      refine ⟨draft, ?_, ?_⟩
      · rw [carryOut, splitPath]
        simp only [Option.bind_eq_bind, Option.bind_some, opened]
        rw [filled, List.nil_append, last]
      · rw [same, Draft.finish_append, Draft.finish, Node.finish, Draft.finish_leaves, Draft.finish,
          List.append_assoc, List.singleton_append]

theorem skipMark_of_head? {text : List Char} (noMark : text.head? ≠ some '\uFEFF') :
    skipMark text = text := by
  cases text with
  | nil => rfl
  | cons c more =>
    rw [skipMark]
    exact fun _ same => noMark (by rw [(List.cons.inj same).1]; rfl)

theorem head?_assignments {text : List Char} {entries : Table}
    (settings : Assignments text entries) {behind : List Char}
    (noMark : behind.head? ≠ some '\uFEFF') : (text ++ behind).head? ≠ some '\uFEFF' := by
  cases settings with
  | nil => exact noMark
  | blankLine => simp
  | comment => simp
  | setting bare =>
    obtain ⟨c, letters, same, all⟩ := exists_bareKey bare
    have other := ne_of_accepts (all c List.mem_cons_self)
      (by decide : isBareKeyChar '\uFEFF' = false)
    simpa [same] using other

theorem head?_sections {text : List Char} {tables : Table} (sections : Sections text tables) :
    text.head? ≠ some '\uFEFF' := by
  cases sections <;> simp

/-- A text whose statements can be carried out is a document. -/
theorem ReadsAs.parse? {text : List Char} {statements : List Statement} {draft : Draft}
    (reads : ReadsAs text statements) (noMark : text.head? ≠ some '\uFEFF')
    (carried : carryOut [] statements [] = some draft) : Toml.parse? text = some draft.finish := by
  rw [Toml.parse?, skipMark_of_head? noMark, reads _ (Nat.lt_succ_self _)]
  simp only [Option.bind_eq_bind, Option.bind_some, carried, Option.pure_def]

/-- A text is read as the table that it denotes. -/
theorem parse?_denotes {text : List Char} {table : Table} (denotes : Denotes text table) :
    parse? text = some table := by
  obtain ⟨top, sections, distinct⟩ := denotes
  rename_i front behind entries tables
  rw [List.map_append] at distinct
  obtain ⟨statements, reads, carried⟩ := sections_carriedOut sections
  have lines := reads.assignments top
  have focus : ∀ (effect : Draft → Option Draft) (below : Draft),
      Draft.modifyAt [] effect (id below) = (effect below).map id := by
    intro effect below
    rw [Option.map_id, Draft.modifyAt, id, id]
  have onTop := carryOut_assigning focus entries statements []
    (by simpa using (List.nodup_append.mp distinct).1)
  rw [id, id, List.nil_append] at onTop
  have keys : (entries.map Draft.leaf).map Prod.fst = entries.map Prod.fst := by
    rw [← Draft.keys_finish, Draft.finish_leaves]
  obtain ⟨draft, last, same⟩ := carried [] (entries.map Draft.leaf) (by rwa [keys])
  rw [lines.parse? (head?_assignments top (head?_sections sections)) (onTop.trans last), same,
    Draft.finish_leaves]

end KeyRelay.Toml

import MdxPress.Proofs.Yaml.Behind
import MdxPress.Proofs.Yaml.Scalar

/-!
The tokens of lines.

* `Reader.stand` is a reader that has passed nothing, before a text at a column;
-/

namespace MdxPress.Yaml

/-! ## Places -/

namespace Cursor

theorem skip_add (m n : Nat) (c : Cursor) : c.skip (m + n) = (c.skip m).skip n := by
  induction m generalizing c with
  | zero => rw [Nat.zero_add]; rfl
  | succ m ih => rw [Nat.succ_add, skip, ih, skip]

/-- Characters that break no line count for the column. -/
theorem skip_inLine {u : Text} (inLine : ∀ c ∈ u, isBreak c = false) (r : Text)
    (index line column : Nat) :
    skip u.length ⟨u ++ r, index, line, column⟩ =
      ⟨r, index + u.length, line, column + u.length⟩ := by
  induction u generalizing index column with
  | nil => rfl
  | cons c u ih =>
    have step : next ⟨c :: u ++ r, index, line, column⟩ = ⟨u ++ r, index + 1, line, column + 1⟩ := by
      simp [next, inLine c (.head _)]
    rw [List.length_cons, skip, step, ih fun d mem => inLine d (.tail _ mem)]
    congr 1 <;> omega

theorem moveTo_self (c : Cursor) : c.moveTo c.rest = c := by
  rw [moveTo, Nat.sub_self]
  rfl

theorem moveTo_inLine {u : Text} (inLine : ∀ c ∈ u, isBreak c = false) (r : Text)
    (index line column : Nat) :
    moveTo ⟨u ++ r, index, line, column⟩ r = ⟨r, index + u.length, line, column + u.length⟩ := by
  have count : (u ++ r).length - r.length = u.length := by simp
  rw [moveTo, count, skip_inLine inLine]

/-- Behind a line break the column is the number of spaces. -/
theorem moveTo_feed {u : Text} (inLine : ∀ c ∈ u, isBreak c = false) (n : Nat) (r : Text)
    (index line column : Nat) :
    moveTo ⟨u ++ '\n' :: (spaces n ++ r), index, line, column⟩ r =
      ⟨r, index + u.length + 1 + n, line + 1, n⟩ := by
  have count : (u ++ '\n' :: (spaces n ++ r)).length - r.length = u.length + (1 + n) := by
    simp [spaces]; omega
  have feed (index column : Nat) :
      skip 1 ⟨'\n' :: (spaces n ++ r), index, line, column⟩ = ⟨spaces n ++ r, index + 1, line + 1, 0⟩ :=
    rfl
  have blank : ∀ c ∈ spaces n, isBreak c = false := fun c mem => by
    rw [List.eq_of_mem_replicate mem]; decide
  have behind := skip_inLine blank r (index + u.length + 1) (line + 1) 0
  rw [spaces, List.length_replicate, Nat.zero_add] at behind
  rw [moveTo, count, skip_add, skip_inLine inLine, skip_add, feed]
  exact behind

end Cursor

/-! ## Gaps -/

/-- Whether a text begins with a character that is no gap and begins no comment. -/
def isVisible : Text → Bool
  | [] => false
  | c :: _ => !isSpace c && !isBreak c && c ≠ '#' && c.toNat ≠ 0xFEFF

/-- A text without quotation marks that begins with a letter or number. -/
structure IsBare (t : Text) : Prop where
  chars : ∀ c ∈ t, isBareChar c = true
  first : t.head?.any Text.isLetterOrNumber = true
  last : t.getLast? ≠ some ' '

namespace IsBare

variable {t : Text} (bare : IsBare t)

include bare

theorem exists_cons : ∃ c r, t = c :: r ∧ Text.isLetterOrNumber c = true := by
  cases t with
  | nil => exact absurd bare.first (by simp)
  | cons c r => exact ⟨c, r, rfl, bare.first⟩

theorem inLine : ∀ c ∈ t, isBreak c = false :=
  fun c mem => isBreak_of_isBareChar (bare.chars c mem)

theorem isVisible_append (r : Text) : isVisible (t ++ r) = true := by
  obtain ⟨c, u, rfl, letter⟩ := bare.exists_cons
  have noBreak := bare.inLine c (.head _)
  have blank : c ≠ ' ' := by rintro rfl; cases letter
  have tab : c ≠ '\t' := by rintro rfl; cases letter
  have comment : c ≠ '#' := by rintro rfl; cases letter
  have mark : c.toNat ≠ 0xFEFF := by
    intro same
    have : c = Char.ofNat 0xFEFF := by rw [← same, Char.ofNat_toNat]
    subst this
    exact absurd letter (by decide +kernel)
  simp [isVisible, isSpace, noBreak, blank, tab, comment, mark]

/-- The text is read up to where it ends. -/
theorem readPlain {indent column : Nat} (deep : indent ≤ column + 1) {r : Text} {p : PlainScalar}
    (ends : ∀ column, Yaml.readPlain false indent column .empty r = .ok p) :
    Yaml.readPlain false indent column .empty (t ++ r) = .ok (p.prepend t) :=
  readPlain_bare bare.chars bare.last rfl deep (.inl rfl) ends

end IsBare

namespace Reader

section

variable {column : Nat} {keyAllowed : Bool} {t : Text}

theorem skipGap_visible (visible : isVisible t = true) :
    skipGap false false keyAllowed column t = (t, keyAllowed) := by
  cases t with
  | nil => cases visible
  | cons c r =>
    obtain ⟨⟨⟨noSpace, noBreak⟩, noComment⟩, noMark⟩ : ((isSpace c = false ∧ isBreak c = false) ∧
        c ≠ '#') ∧ c.toNat ≠ 0xFEFF := by simpa [isVisible] using visible
    obtain ⟨blank, tab⟩ : c ≠ ' ' ∧ c ≠ '\t' := by simpa [isSpace] using noSpace
    simp [skipGap, noBreak, noComment, noMark, blank, tab]

theorem skipGap_spaces (visible : isVisible t = true) (n : Nat) :
    skipGap false false keyAllowed column (spaces n ++ t) = (t, keyAllowed) := by
  induction n generalizing column with
  | zero => exact skipGap_visible visible
  | succ n ih =>
    have more : spaces (n + 1) = ' ' :: spaces n := rfl
    have noBreak : isBreak ' ' = false := by decide
    rw [more, List.cons_append, skipGap]
    simpa [noBreak] using ih

theorem skipGap_feed (visible : isVisible t = true) (n : Nat) :
    skipGap false false keyAllowed column ('\n' :: (spaces n ++ t)) = (t, true) := by
  have feed : isBreak '\n' = true := by decide
  rw [skipGap, if_pos feed, Bool.not_false, Bool.or_true, skipGap_spaces visible]

end

/-- Goes on over a gap, outside of flow collections. -/
theorem ready_of_gap {s : Reader} (outside : s.outer = []) {r : Text} {allowed : Bool}
    (gap : skipGap false false s.keyAllowed s.cursor.column s.cursor.rest = (r, allowed))
    {k : Option KeyCandidate} (refreshed : refresh (s.cursor.moveTo r) s.candidate = .ok k) :
    s.ready = .ok ({ s with
      cursor := s.cursor.moveTo r, keyAllowed := allowed, candidate := k }.closeBlocks
        (some (s.cursor.moveTo r).column)) := by
  have inFlow : s.inFlow = false := by simp [inFlow, outside]
  simp [ready, inFlow, gap, moveTo, dropStale, refreshed, outside, Except.bind, Except.map,
    List.mapM_nil, pure, Except.pure]

/-! ## Runs -/

/-- A reader that remembers nothing but the open collections, outside of flow collections. -/
def stand (blocks : List Nat) (column : Nat) (keyAllowed : Bool) (t : Text) : Reader :=
  ⟨⟨t, 0, 0, column⟩, [], blocks, keyAllowed, none, []⟩

/-- The ends of the collections that do not reach a column. -/
def closing (blocks : List Nat) (column : Nat) : List Token :=
  (blocks.takeWhile (column < ·)).map fun _ => .blockEnd

theorem run_of_token {s s' s'' : Reader} {c : Char} {r : Text} (ready : s.ready = .ok s')
    (rest : s'.cursor.rest = c :: r) (token : s'.token c r = .ok s'')
    (shorter : s''.cursor.rest.length < s.cursor.rest.length) : s.run = s''.run := by
  rw [run, ready]
  simp [Except.bind, rest, token, shorter]

/-- A gap may be passed over at once. -/
theorem run_eq_ok_of_ready {s s' : Reader} (ready : s.ready = .ok s') (settled : s'.ready = .ok s')
    (shorter : s'.cursor.rest.length ≤ s.cursor.rest.length) {ts : List Token}
    (runs : s'.run = .ok ts) : s.run = .ok ts := by
  rw [run, settled] at runs
  rw [run, ready]
  cases rest : s'.cursor.rest with
  | nil => simpa [Except.bind, rest] using runs
  | cons c r =>
    rw [rest] at shorter
    simp only [Except.bind, rest] at runs ⊢
    cases token : s'.token c r with
    | error e => rw [token] at runs; cases runs
    | ok s'' =>
      simp only [token] at runs ⊢
      by_cases taken : s''.cursor.rest.length < (c :: r).length
      · rw [if_pos (Nat.lt_of_lt_of_le taken shorter)]
        rwa [if_pos taken] at runs
      · rw [if_neg taken] at runs
        cases runs

theorem run_of_ready {s s' : Reader} (ready : s.ready = .ok s') (settled : s'.ready = .ok s')
    (same : s'.cursor.rest.length = s.cursor.rest.length) : s.run = s'.run := by
  rw [run, ready, run.eq_1 s', settled, same]

section

variable {blocks : List Nat} {column : Nat} {keyAllowed : Bool} {t : Text}

theorem closeBlocks_eq {s : Reader} (outside : s.outer = []) (column : Nat) :
    s.closeBlocks (some column) = { s with
      tokens := s.tokens ++ closing s.blocks column, blocks := s.blocks.dropWhile (column < ·) } := by
  have inFlow : s.inFlow = false := by simp [inFlow, outside]
  simp [closeBlocks, inFlow, closing]

/-- Behind a gap the reader has passed the tokens so far, and stands in the collections that reach
the column. -/
theorem ready_eq {s : Reader} (outside : s.outer = []) {allowed : Bool}
    (gap : skipGap false false s.keyAllowed s.cursor.column s.cursor.rest = (t, allowed))
    (dropped : refresh (s.cursor.moveTo t) s.candidate = .ok none) {index line : Nat}
    (place : s.cursor.moveTo t = ⟨t, index, line, column⟩) :
    s.ready = .ok ((stand (s.blocks.dropWhile (column < ·)) column allowed t).behind
      (s.tokens ++ closing s.blocks column) index line) := by
  rw [ready_of_gap outside gap dropped, closeBlocks_eq (by exact outside), place]
  simp [stand, behind, Cursor.behind, outside]

theorem closing_eq_nil (reaches : blocks.head?.all (· ≤ column) = true) :
    closing blocks column = [] ∧ blocks.dropWhile (column < ·) = blocks := by
  cases blocks with
  | nil => exact ⟨rfl, rfl⟩
  | cons b bs =>
    have left : ¬column < b := by simpa using reaches
    simp [closing, left]

theorem ready_stand (keyAllowed : Bool) (visible : isVisible t = true) (reaches : blocks.head?.all (· ≤ column) = true) :
    (stand blocks column keyAllowed t).ready = .ok (stand blocks column keyAllowed t) := by
  obtain ⟨none, stay⟩ := closing_eq_nil reaches
  have passed := ready_eq (s := stand blocks column keyAllowed t) rfl (skipGap_visible visible) rfl
    (Cursor.moveTo_self _)
  exact passed.trans (by simp [stand, none, stay, behind, Cursor.behind])

theorem reaches_dropWhile (blocks : List Nat) (column : Nat) :
    (blocks.dropWhile (column < ·)).head?.all (· ≤ column) = true := by
  have stops := List.head?_dropWhile_not (fun b => decide (column < b)) blocks
  cases first : (blocks.dropWhile (column < ·)).head? with
  | none => rfl
  | some b => simpa [first] using stops

/-- A gap whose end is as long as what is left is passed over at once. -/
theorem run_of_gap {s : Reader} (outside : s.outer = []) {allowed : Bool}
    (gap : skipGap false false s.keyAllowed s.cursor.column s.cursor.rest = (t, allowed))
    (dropped : refresh (s.cursor.moveTo t) s.candidate = .ok none) {index line : Nat}
    (place : s.cursor.moveTo t = ⟨t, index, line, column⟩) (visible : isVisible t = true)
    (same : t.length = s.cursor.rest.length) :
    s.run = (stand (s.blocks.dropWhile (column < ·)) column allowed t).run.map
      ((s.tokens ++ closing s.blocks column) ++ ·) := by
  have settled := ready_stand allowed visible (reaches_dropWhile s.blocks column)
  rw [← run_behind _ _ index line]
  exact run_of_ready (ready_eq outside gap dropped place) (by rw [ready_behind, settled]; rfl) same

theorem run_eq_ok_of_gap {s : Reader} (outside : s.outer = []) {allowed : Bool}
    (gap : skipGap false false s.keyAllowed s.cursor.column s.cursor.rest = (t, allowed))
    (dropped : refresh (s.cursor.moveTo t) s.candidate = .ok none) {index line : Nat}
    (place : s.cursor.moveTo t = ⟨t, index, line, column⟩) (visible : isVisible t = true)
    (shorter : t.length ≤ s.cursor.rest.length) {ts : List Token}
    (runs : (stand (s.blocks.dropWhile (column < ·)) column allowed t).run = .ok ts) :
    s.run = .ok ((s.tokens ++ closing s.blocks column) ++ ts) := by
  have settled := ready_stand allowed visible (reaches_dropWhile s.blocks column)
  refine run_eq_ok_of_ready (ready_eq outside gap dropped place) (by rw [ready_behind, settled]; rfl)
    shorter ?_
  rw [run_behind, runs]
  rfl

/-- At the end of the text all collections end. -/
theorem run_of_end {s : Reader} (outside : s.outer = []) (atEnd : s.cursor.rest = [])
    (dropped : giveUp s.candidate = .ok none) :
    s.run = .ok (s.tokens ++ s.blocks.map fun _ => Token.blockEnd) := by
  obtain ⟨k, refreshed, gone⟩ : ∃ k, refresh s.cursor s.candidate = .ok k ∧ giveUp k = .ok none := by
    unfold refresh
    split
    · exact ⟨none, dropped, rfl⟩
    · exact ⟨s.candidate, rfl, dropped⟩
  have stays : s.cursor.moveTo [] = s.cursor := by
    rw [← atEnd]
    exact Cursor.moveTo_self _
  have gap : skipGap false false s.keyAllowed s.cursor.column s.cursor.rest = ([], s.keyAllowed) := by
    rw [atEnd, skipGap]
  have ready := ready_of_gap outside gap (by rw [stays]; exact refreshed)
  rw [closeBlocks_eq (by exact outside), stays] at ready
  have ends : closing s.blocks s.cursor.column ++
      (s.blocks.dropWhile (s.cursor.column < ·)).map (fun _ => Token.blockEnd) =
        s.blocks.map fun _ => .blockEnd := by
    rw [closing, ← List.map_append, List.takeWhile_append_dropWhile]
  have all (bs : List Nat) : bs.takeWhile (fun _ => true) = bs := by
    induction bs with
    | nil => rfl
    | cons b bs ih => rw [List.takeWhile_cons_of_pos rfl, ih]
  rw [run, ready]
  simp only [Except.bind, atEnd]
  simpa [finish, closeBlocks, inFlow, outside, dropKey, gone, Except.map, all] using ends

end

/-! ## Tokens on one line -/

/-- A letter or number begins a scalar without quotation marks. -/
theorem token_letter {c : Char} (letter : Text.isLetterOrNumber c = true) (s : Reader) (r : Text) :
    s.token c r = s.plain := by
  have none : ∀ d ∈ "%[]\x7b\x7d,-?:*&!|>'\"#@\x60.".toList, Text.isLetterOrNumber d = false := by
    decide
  have ne : ∀ d ∈ "%[]\x7b\x7d,-?:*&!|>'\"#@\x60.".toList, c ≠ d := by
    rintro d mem rfl
    rw [none _ mem] at letter
    cases letter
  have bare : isBareChar c = true := by simp [isBareChar, letter]
  have noBreak := isBreak_of_isBareChar bare
  have noSpace : isSpace c = false := by
    have blank : c ≠ ' ' := by rintro rfl; cases letter
    have tab : c ≠ '\t' := by rintro rfl; cases letter
    simp [isSpace, blank, tab]
  have noMark : atDocumentMark (c :: r) = false := by
    rw [atDocumentMark]
    · exact fun r' same => ne '-' (by decide) (List.cons.inj same).1
    · exact fun r' same => ne '.' (by decide) (List.cons.inj same).1
  simp only [String.reduceToList, List.forall_mem_cons] at ne
  unfold token
  simp [noMark, ne, startsPlain, noSpace, noBreak]

theorem token_quote (s : Reader) (r : Text) :
    s.token '"' r = s.item ((readQuoted false .content (s.cursor.column + 1) .empty r).map fun p =>
      (.scalar false p.1, p.2)) := by
  have noMark : atDocumentMark ('"' :: r) = false := rfl
  unfold token
  simp [noMark]

theorem token_colon (s : Reader) {r : Text} (gap : atGap r = true) : s.token ':' r = s.value r := by
  have noMark : atDocumentMark (':' :: r) = false := rfl
  unfold token
  simp [noMark, gap]

theorem token_dash {s : Reader} (inside : s.cursor.column ≠ 0) {r : Text} (gap : atGap r = true) :
    s.token '-' r = s.blockEntry r := by
  unfold token
  simp [inside, gap]

section

variable {blocks : List Nat} {column : Nat} {keyAllowed : Bool} {t : Text}

/-- What is remembered of a scalar at a place where a key may begin. -/
def marked (blocks : List Nat) (column : Nat) (keyAllowed : Bool) (t : Text) : Option KeyCandidate :=
  if keyAllowed then some ⟨blocks.head? == some column, 0, ⟨t, 0, 0, column⟩⟩ else none

theorem markKey_stand : (stand blocks column keyAllowed t).markKey =
    .ok { stand blocks column keyAllowed t with
      candidate := marked blocks column keyAllowed t } := by
  cases keyAllowed <;> rfl

theorem item_stand {token : Token} {r : Text} :
    (stand blocks column keyAllowed t).item (.ok (token, r)) =
      .ok ⟨(Cursor.mk t 0 0 column).moveTo r, [token], blocks, false,
        marked blocks column keyAllowed t, []⟩ := by
  rw [item, markKey_stand]
  rfl

theorem plain_stand (keyAllowed : Bool) {p : PlainScalar}
    (reads : readPlain false ((blocks.head?.map (· + 1)).getD 0) column .empty t = .ok p) :
    (stand blocks column keyAllowed t).plain =
      .ok ⟨(Cursor.mk t 0 0 column).moveTo p.rest, [.scalar true p.content], blocks, p.broken,
        marked blocks column keyAllowed t, []⟩ := by
  rw [plain, markKey_stand]
  have outside : ({ stand blocks column keyAllowed t with
      candidate := marked blocks column keyAllowed t } : Reader).inFlow = false := rfl
  simp only [Except.bind, outside]
  simp only [stand] at reads ⊢
  rw [reads]
  rfl

end

/-! ## Keys -/

/-- A key with its colon: a mapping begins there, unless one stands at that column. -/
theorem run_key {blocks : List Nat} (top : blocks = [] ∨ blocks = [0]) {name : Text}
    (bare : IsBare name) (short : name.length ≤ 1024) {r : Text} (gap : atGap r = true) :
    (stand blocks 0 true (name ++ ':' :: r)).run =
      (stand [0] (name.length + 1) false r).run.map
        ((if blocks = [] then [Token.blockMappingStart] else []) ++
          [Token.key, .scalar true name, .value] ++ ·) := by
  have reaches : blocks.head?.all (· ≤ 0) = true := by rcases top with rfl | rfl <;> rfl
  have read := bare.readPlain (show (blocks.head?.map (· + 1)).getD 0 ≤ 0 + 1 by
    rcases top with rfl | rfl <;> decide) (fun column => readPlain_colon _ column gap)
  obtain ⟨c, u, same, letter⟩ := bare.exists_cons
  let place : Cursor := ⟨':' :: r, name.length, 0, name.length⟩
  let candidate : KeyCandidate := ⟨blocks.head? == some 0, 0, ⟨name ++ ':' :: r, 0, 0, 0⟩⟩
  let named : Reader := ⟨place, [.scalar true name], blocks, false, some candidate, []⟩
  let behindColon : Reader :=
    ⟨⟨r, name.length + 1, 0, name.length + 1⟩, (if blocks = [] then [Token.blockMappingStart] else []) ++
      [Token.key, .scalar true name, .value], [0], false, none, []⟩
  have toName : (stand blocks 0 true (name ++ ':' :: r)).token c (u ++ ':' :: r) = .ok named := by
    have moved := Cursor.moveTo_inLine bare.inLine (':' :: r) 0 0 0
    rw [Nat.zero_add] at moved
    rw [token_letter letter, plain_stand true read]
    simp [PlainScalar.prepend, moved, marked, named, place, candidate]
  have ready : named.ready = .ok named := by
    have moved : place.moveTo (':' :: r) = place := Cursor.moveTo_self place
    have fresh : candidate.isStale place = false := by
      simp [KeyCandidate.isStale, candidate, place]; omega
    have reachesName : blocks.head?.all (· ≤ name.length) = true := by
      rcases top with rfl | rfl <;> simp
    obtain ⟨none, stay⟩ := closing_eq_nil reachesName
    have passed := ready_of_gap (s := named) rfl (skipGap_visible rfl)
      (show refresh (place.moveTo (':' :: r)) (some candidate) = .ok (some candidate) by
        simp [refresh, moved, fresh])
    rw [closeBlocks_eq rfl] at passed
    simpa [named, moved, place, none, stay] using passed
  have toColon : named.token ':' r = .ok behindColon := by
    have moved : place.moveTo r = ⟨r, name.length + 1, 0, name.length + 1⟩ :=
      Cursor.moveTo_inLine (u := [':']) (by decide) r _ _ _
    rw [token_colon named gap]
    rcases top with rfl | rfl <;>
      simp [value, named, insert, openBlock, inFlow, emit, moveTo, moved, candidate, behindColon]
  rw [run_of_token (ready_stand true (bare.isVisible_append _) reaches) (by rw [same]; rfl) toName
    (by simp only [named, place, stand, same, List.length_append, List.length_cons]; omega),
    run_of_token ready rfl toColon (by simp [behindColon, named, place])]
  have stands : behindColon = (stand [0] (name.length + 1) false r).behind
      ((if blocks = [] then [Token.blockMappingStart] else []) ++ [Token.key, .scalar true name, .value])
      (name.length + 1) 0 := by
    simp [behindColon, stand, behind, Cursor.behind]
  rw [stands, run_behind]

/-! ## Scalars behind a space -/

section

variable {blocks : List Nat} {column : Nat} {keyAllowed : Bool} {t : Text}

/-- The reader goes on with the token behind a space. -/
theorem run_space {c : Char} {r : Text} (visible : isVisible (c :: r) = true)
    (reaches : blocks.head?.all (· ≤ column + 1) = true) {s : Reader}
    (token : (stand blocks (column + 1) keyAllowed (c :: r)).token c r = .ok s)
    (shorter : s.cursor.rest.length ≤ r.length) :
    (stand blocks column keyAllowed (' ' :: c :: r)).run = s.run := by
  obtain ⟨none, stay⟩ := closing_eq_nil reaches
  have moved : (Cursor.mk (' ' :: c :: r) 0 0 column).moveTo (c :: r) = ⟨c :: r, 1, 0, column + 1⟩ :=
    Cursor.moveTo_inLine (u := [' ']) (by decide) (c :: r) 0 0 column
  have passed := ready_eq (s := stand blocks column keyAllowed (' ' :: c :: r)) rfl
    (skipGap_spaces visible 1) rfl moved
  have begun : ((stand blocks (column + 1) keyAllowed (c :: r)).behind [] 1 0).token c r =
      .ok (s.behind [] 1 0) := by
    rw [token_behind, token]
    rfl
  have ready : (stand blocks column keyAllowed (' ' :: c :: r)).ready =
      .ok ((stand blocks (column + 1) keyAllowed (c :: r)).behind [] 1 0) :=
    passed.trans (by simp [stand, none, stay])
  rw [run_of_token ready rfl begun (by simp [stand]; omega), run_behind]
  cases s.run <;> rfl

theorem giveUp_marked (free : keyAllowed = true → blocks.head? ≠ some column) :
    giveUp (marked blocks column keyAllowed t) = .ok none := by
  unfold marked
  split
  · rename_i allowed
    simp [giveUp, free allowed]
  · rfl

/-- A key that has not met its colon is given up on the next line. -/
theorem refresh_marked (free : keyAllowed = true → blocks.head? ≠ some column) {c : Cursor}
    (below : 0 < c.line) : refresh c (marked blocks column keyAllowed t) = .ok none := by
  unfold refresh
  split
  · exact giveUp_marked free
  · rename_i fresh
    unfold marked at fresh ⊢
    split
    · rename_i allowed
      simp [allowed, KeyCandidate.isStale, below] at fresh
    · rfl

theorem exists_of_isVisible {r : Text} (visible : isVisible r = true) :
    ∃ c r', r = c :: r' ∧ isSpace c = false ∧ isBreak c = false := by
  cases r with
  | nil => cases visible
  | cons c r' =>
    refine ⟨c, r', rfl, ?_⟩
    simp only [isVisible, Bool.and_eq_true, Bool.not_eq_true'] at visible
    exact visible.1.1

section

variable {w : Text} (bare : IsBare w) (free : keyAllowed = true → blocks.head? ≠ some (column + 1))

include bare free

/-- A scalar without quotation marks in front of another line. -/
theorem run_plain_feed {b n : Nat} {bs : List Nat} (top : blocks = b :: bs) (inside : b ≤ column + 1)
    (left : n ≤ b) {r : Text} (visible : isVisible r = true) :
    (stand blocks column keyAllowed (' ' :: w ++ '\n' :: (spaces n ++ r))).run =
      (stand (blocks.dropWhile (n < ·)) n true r).run.map
        ((.scalar true w :: closing blocks n) ++ ·) := by
  subst top
  obtain ⟨c, u, rfl, letter⟩ := bare.exists_cons
  obtain ⟨d, r', rfl, noSpace, noBreak⟩ := exists_of_isVisible visible
  have read := bare.readPlain (show ((b :: bs).head?.map (· + 1)).getD 0 ≤ column + 1 + 1 from
    Nat.succ_le_succ inside) fun column =>
      readPlain_feed (show n < b + 1 from Nat.lt_succ_of_le left) noSpace noBreak column r'
  have moved := Cursor.moveTo_feed bare.inLine n (d :: r') 0 0 (column + 1)
  have scalar := plain_stand keyAllowed read
  simp only [PlainScalar.prepend, List.append_nil, moved] at scalar
  have shown := bare.isVisible_append ('\n' :: (spaces n ++ d :: r'))
  have goes := run_space shown (by simpa using inside) ((token_letter letter _ _).trans scalar)
    (by simp; omega)
  refine goes.trans ?_
  have place := Cursor.moveTo_self ⟨d :: r', 0 + (c :: u).length + 1 + n, 0 + 1, n⟩
  rw [run_of_gap rfl (skipGap_visible visible)
    (refresh_marked free (by rw [Cursor.moveTo_self]; exact Nat.one_pos)) place visible rfl]
  rfl

/-- A scalar without quotation marks at the end of the text. -/
theorem run_plain_end (reaches : blocks.head?.all (· ≤ column + 1) = true) :
    (stand blocks column keyAllowed (' ' :: w)).run =
      .ok (.scalar true w :: blocks.map fun _ => .blockEnd) := by
  obtain ⟨c, u, rfl, letter⟩ := bare.exists_cons
  have deep : (blocks.head?.map (· + 1)).getD 0 ≤ column + 1 + 1 := by
    cases first : blocks.head? with
    | none => simp
    | some b => simpa [first] using reaches
  have read := bare.readPlain deep fun column => readPlain_nil _ column
  have moved := Cursor.moveTo_inLine bare.inLine [] 0 0 (column + 1)
  have scalar := plain_stand keyAllowed read
  rw [List.append_nil] at scalar moved
  simp only [PlainScalar.prepend, List.append_nil] at scalar
  rw [moved] at scalar
  have visible := bare.isVisible_append []
  rw [List.append_nil] at visible
  have goes := run_space visible reaches ((token_letter letter _ _).trans scalar) (Nat.zero_le _)
  exact goes.trans (run_of_end rfl rfl (giveUp_marked free))

end

section

variable (kept : ∀ c ∈ t, isKept c = true) (free : keyAllowed = true → blocks.head? ≠ some (column + 1))
  (reaches : blocks.head?.all (· ≤ column + 1) = true)

include kept reaches

/-- A scalar between quotation marks, up to its end. -/
theorem run_quoted (keyAllowed : Bool) (r : Text) :
    (stand blocks column keyAllowed (' ' :: ('"' :: escaped t ++ ['"']) ++ r)).run =
      run ⟨⟨r, ('"' :: escaped t ++ ['"']).length, 0, column + 1 + ('"' :: escaped t ++ ['"']).length⟩,
        [.scalar false t], blocks, false,
        marked blocks (column + 1) keyAllowed (('"' :: escaped t ++ ['"']) ++ r), []⟩ := by
  have inLine : ∀ c ∈ '"' :: escaped t ++ ['"'], isBreak c = false := by
    have mark : isBreak '"' = false := by decide
    intro c mem
    rcases List.mem_append.1 mem with mem | mem
    · rcases List.mem_cons.1 mem with rfl | mem
      · exact mark
      · exact (isBreak_of_mem_escaped kept c mem).1
    · rw [List.mem_singleton.1 mem]; exact mark
  have moved := Cursor.moveTo_inLine inLine r 0 0 (column + 1)
  have read : readQuoted false .content (column + 1 + 1) .empty (escaped t ++ '"' :: r) = _ :=
    readQuoted_escaped kept (Nat.succ_pos _) rfl r
  have scalar : (stand blocks (column + 1) keyAllowed (('"' :: escaped t ++ ['"']) ++ r)).token '"'
      (escaped t ++ '"' :: r) = .ok _ :=
    (token_quote _ _).trans ((congrArg _ (congrArg _ read)).trans item_stand)
  rw [moved, Nat.zero_add] at scalar
  have whole : ' ' :: ('"' :: escaped t ++ ['"']) ++ r = ' ' :: '"' :: (escaped t ++ '"' :: r) := by simp
  have inside : ('"' :: escaped t ++ ['"']) ++ r = '"' :: (escaped t ++ '"' :: r) := by simp
  rw [inside] at scalar
  rw [whole, inside]
  exact run_space (by rfl) reaches scalar (by simp; omega)

include free

/-- A scalar between quotation marks in front of another line. -/
theorem run_quoted_feed (n : Nat) {r : Text} (visible : isVisible r = true) {ts : List Token}
    (runs : (stand (blocks.dropWhile (n < ·)) n true r).run = .ok ts) :
    (stand blocks column keyAllowed
      (' ' :: ('"' :: escaped t ++ ['"']) ++ '\n' :: (spaces n ++ r))).run =
        .ok ((.scalar false t :: closing blocks n) ++ ts) := by
  rw [run_quoted kept reaches]
  have place := Cursor.moveTo_feed (u := []) (by simp) n r
    ('"' :: escaped t ++ ['"']).length 0 (column + 1 + ('"' :: escaped t ++ ['"']).length)
  refine run_eq_ok_of_gap rfl ?gap ?dropped place visible ?shorter runs
  case gap => exact skipGap_feed visible n
  case dropped =>
    exact refresh_marked free (Nat.lt_of_lt_of_eq Nat.one_pos (congrArg Cursor.line place).symm)
  case shorter =>
    simp
    omega

/-- A scalar between quotation marks at the end of the text. -/
theorem run_quoted_end :
    (stand blocks column keyAllowed (' ' :: ('"' :: escaped t ++ ['"']))).run =
      .ok (.scalar false t :: blocks.map fun _ => .blockEnd) := by
  have whole := run_quoted kept reaches keyAllowed []
  rw [List.append_nil] at whole
  exact whole.trans (run_of_end rfl rfl (giveUp_marked free))

end

end

/-! ## Lines and dashes -/

/-- A line ends, and with it the collections that do not reach the next token. -/
theorem run_feed (blocks : List Nat) (column : Nat) (keyAllowed : Bool) (n : Nat) {r : Text}
    (visible : isVisible r = true) {ts : List Token}
    (runs : (stand (blocks.dropWhile (n < ·)) n true r).run = .ok ts) :
    (stand blocks column keyAllowed ('\n' :: (spaces n ++ r))).run = .ok (closing blocks n ++ ts) :=
  run_eq_ok_of_gap rfl (skipGap_feed visible n) rfl
    (Cursor.moveTo_feed (u := []) (by simp) n r 0 0 column) visible (by simp [stand]; omega) runs

section

variable {n : Nat} (inside : n ≠ 0) {r : Text} (gap : atGap r = true)

include inside gap

/-- A dash begins a sequence to the right of the enclosing collection. -/
theorem run_dash_open {b : Nat} {bs : List Nat} (lies : b < n) :
    (stand (b :: bs) n true ('-' :: r)).run =
      (stand (n :: b :: bs) (n + 1) true r).run.map ([.blockSequenceStart, .blockEntry] ++ ·) := by
  have moved : (Cursor.mk ('-' :: r) 0 0 n).moveTo r = ⟨r, 1, 0, n + 1⟩ :=
    Cursor.moveTo_inLine (u := ['-']) (by decide) r 0 0 n
  have token : (stand (b :: bs) n true ('-' :: r)).token '-' r =
      .ok ((stand (n :: b :: bs) (n + 1) true r).behind [.blockSequenceStart, .blockEntry] 1 0) := by
    rw [token_dash (by exact inside) gap]
    simp [blockEntry, openHere, inFlow, stand, openBlock, lies, insert, dropKey, giveUp, emit, moveTo, moved,
      behind, Cursor.behind, Except.bind, Except.map]
  have reaches : (b :: bs).head?.all (· ≤ n) = true := by simpa using Nat.le_of_lt lies
  rw [run_of_token (ready_stand true (by rfl) reaches) rfl token (by simp [stand]), run_behind]

/-- A dash at the column of a sequence goes on with it. -/
theorem run_dash (bs : List Nat) :
    (stand (n :: bs) n true ('-' :: r)).run =
      (stand (n :: bs) (n + 1) true r).run.map ([.blockEntry] ++ ·) := by
  have moved : (Cursor.mk ('-' :: r) 0 0 n).moveTo r = ⟨r, 1, 0, n + 1⟩ :=
    Cursor.moveTo_inLine (u := ['-']) (by decide) r 0 0 n
  have token : (stand (n :: bs) n true ('-' :: r)).token '-' r =
      .ok ((stand (n :: bs) (n + 1) true r).behind [.blockEntry] 1 0) := by
    rw [token_dash (by exact inside) gap]
    simp [blockEntry, openHere, inFlow, stand, openBlock, dropKey, giveUp, emit, moveTo, moved,
      behind, Cursor.behind, Except.bind, Except.map]
  rw [run_of_token (ready_stand true (by rfl) (by simp)) rfl token (by simp [stand]), run_behind]

end

end Reader
end MdxPress.Yaml

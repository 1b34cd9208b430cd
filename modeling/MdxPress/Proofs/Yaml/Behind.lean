import MdxPress.Yaml.Token.Reader

/-!
What stands before a place in a YAML text does not matter to the reader there, except for what it
remembers: the tokens so far stay in front, and places are counted from elsewhere.

* `Reader.behind` puts tokens, characters and lines in front of all that a reader remembers;
* `Reader.run_behind` says that the rest of the text gives the same tokens behind them.
-/

namespace MdxPress.Yaml

/-- A place, with characters and lines more before it. -/
def Cursor.behind (c : Cursor) (index line : Nat) : Cursor :=
  { c with index := index + c.index, line := line + c.line }

/-- A candidate, with tokens, characters and lines more before it. -/
def KeyCandidate.behind (k : KeyCandidate) (count index line : Nat) : KeyCandidate :=
  { k with token := count + k.token, place := k.place.behind index line }

/-- A reader, with tokens, characters and lines more before it. -/
def Reader.behind (s : Reader) (ts : List Token) (index line : Nat) : Reader where
  cursor := s.cursor.behind index line
  tokens := ts ++ s.tokens
  blocks := s.blocks
  keyAllowed := s.keyAllowed
  candidate := s.candidate.map (·.behind ts.length index line)
  outer := s.outer.map (Option.map (·.behind ts.length index line))

section

variable (s : Reader) (ts : List Token) (index line : Nat)

/-! ## Places -/

@[simp]
theorem Cursor.rest_behind (c : Cursor) : (c.behind index line).rest = c.rest := rfl

@[simp]
theorem Cursor.column_behind (c : Cursor) : (c.behind index line).column = c.column := rfl

theorem Cursor.next_behind (c : Cursor) : (c.behind index line).next = c.next.behind index line := by
  unfold next
  rw [rest_behind]
  split
  · rfl
  · split <;> rfl

theorem Cursor.skip_behind (n : Nat) (c : Cursor) :
    (c.behind index line).skip n = (c.skip n).behind index line := by
  induction n generalizing c with
  | zero => rfl
  | succ n ih => rw [skip, next_behind, ih, skip]

theorem Cursor.moveTo_behind (c : Cursor) (r : Text) :
    (c.behind index line).moveTo r = (c.moveTo r).behind index line := by
  rw [moveTo, rest_behind, skip_behind, moveTo]

theorem KeyCandidate.isStale_behind (k : KeyCandidate) (c : Cursor) :
    (k.behind ts.length index line).isStale (c.behind index line) = k.isStale c := by
  simp only [isStale, behind, Cursor.behind, Nat.add_lt_add_iff_left, Nat.add_assoc]

namespace Reader

/-! ## What the reader remembers -/

@[simp]
theorem rest_behind : (s.behind ts index line).cursor.rest = s.cursor.rest := rfl

@[simp]
theorem column_behind : (s.behind ts index line).cursor.column = s.cursor.column := rfl

@[simp]
theorem keyAllowed_behind : (s.behind ts index line).keyAllowed = s.keyAllowed := rfl

@[simp]
theorem blocks_behind : (s.behind ts index line).blocks = s.blocks := rfl

@[simp]
theorem length_tokens_behind :
    (s.behind ts index line).tokens.length = ts.length + s.tokens.length :=
  List.length_append

@[simp]
theorem inFlow_behind : (s.behind ts index line).inFlow = s.inFlow := by
  simp [inFlow, behind]

theorem emit_behind (t : Token) : (s.behind ts index line).emit t = (s.emit t).behind ts index line := by
  simp [emit, behind]

theorem insert_behind (n : Nat) (t : Token) :
    (s.behind ts index line).insert (ts.length + n) t = (s.insert n t).behind ts index line := by
  have before : (ts ++ s.tokens).take (ts.length + n) = ts ++ s.tokens.take n :=
    List.take_length_add_append n
  have after : (ts ++ s.tokens).drop (ts.length + n) = s.tokens.drop n :=
    List.drop_length_add_append n
  simp [insert, behind, before, after]

theorem moveTo_behind (r : Text) :
    (s.behind ts index line).moveTo r = (s.moveTo r).behind ts index line := by
  simp [moveTo, behind, Cursor.moveTo_behind]

/-! ## Block collections -/

theorem closeBlocks_behind (column : Option Nat) :
    (s.behind ts index line).closeBlocks column = (s.closeBlocks column).behind ts index line := by
  simp only [closeBlocks, inFlow_behind, blocks_behind]
  split
  · rfl
  · simp [behind]

theorem openBlock_behind (column n : Nat) (t : Token) :
    (s.behind ts index line).openBlock column (ts.length + n) t =
      (s.openBlock column n t).behind ts index line := by
  simp only [openBlock, inFlow_behind, blocks_behind, insert_behind]
  split <;> rfl

theorem openHere_behind (t : Token) :
    (s.behind ts index line).openHere t = (s.openHere t).map (·.behind ts index line) := by
  simp only [openHere, inFlow_behind, keyAllowed_behind, column_behind, length_tokens_behind,
    openBlock_behind]
  split
  · rfl
  · split <;> rfl

/-! ## Keys -/

theorem giveUp_behind (k : Option KeyCandidate) :
    giveUp (k.map (·.behind ts.length index line)) =
      (giveUp k).map (Option.map (·.behind ts.length index line)) := by
  cases k with
  | none => rfl
  | some k =>
    by_cases required : k.isRequired <;>
      simp [giveUp, KeyCandidate.behind, required, Except.map]

theorem refresh_behind (c : Cursor) (k : Option KeyCandidate) :
    refresh (c.behind index line) (k.map (·.behind ts.length index line)) =
      (refresh c k).map (Option.map (·.behind ts.length index line)) := by
  have stale : (k.map (·.behind ts.length index line)).any (·.isStale (c.behind index line)) =
      k.any (·.isStale c) := by
    cases k with
    | none => rfl
    | some k => exact KeyCandidate.isStale_behind ts index line k c
  rw [refresh, stale, refresh, giveUp_behind]
  split <;> rfl

theorem dropKey_behind :
    (s.behind ts index line).dropKey = s.dropKey.map (·.behind ts index line) := by
  simp only [dropKey, behind, giveUp_behind]
  cases giveUp s.candidate <;> rfl

theorem markKey_behind :
    (s.behind ts index line).markKey = s.markKey.map (·.behind ts index line) := by
  simp only [markKey, keyAllowed_behind, inFlow_behind, blocks_behind, column_behind,
    dropKey_behind]
  split
  · cases s.dropKey with
    | error e => rfl
    | ok s' => simp [Except.map, behind, KeyCandidate.behind]
  · rfl

theorem mapM_refresh_behind (c : Cursor) (ks : List (Option KeyCandidate)) :
    (ks.map (Option.map (·.behind ts.length index line))).mapM (refresh (c.behind index line)) =
      (ks.mapM (refresh c)).map (List.map (Option.map (·.behind ts.length index line))) := by
  induction ks with
  | nil => rfl
  | cons k ks ih =>
    rw [List.map_cons, List.mapM_cons, List.mapM_cons, ih, refresh_behind]
    cases refresh c k with
    | error e => rfl
    | ok k => cases ks.mapM (refresh c) <;> rfl

theorem dropStale_behind :
    (s.behind ts index line).dropStale = s.dropStale.map (·.behind ts index line) := by
  simp only [dropStale, behind, refresh_behind, mapM_refresh_behind]
  cases refresh s.cursor s.candidate with
  | error e => rfl
  | ok k => cases s.outer.mapM (refresh s.cursor) <;> rfl

theorem ready_behind : (s.behind ts index line).ready = s.ready.map (·.behind ts index line) := by
  simp only [ready, inFlow_behind, keyAllowed_behind, column_behind, rest_behind, moveTo_behind]
  generalize skipGap s.inFlow false s.keyAllowed s.cursor.column s.cursor.rest = gap
  have same : { (s.moveTo gap.1).behind ts index line with keyAllowed := gap.2 } =
      { s.moveTo gap.1 with keyAllowed := gap.2 }.behind ts index line := rfl
  rw [same, dropStale_behind]
  cases { s.moveTo gap.1 with keyAllowed := gap.2 }.dropStale with
  | error e => rfl
  | ok s => exact congrArg Except.ok (closeBlocks_behind s ts index line _)

/-! ## Tokens -/

theorem boundary_behind (t : Token) (r : Text) :
    (s.behind ts index line).boundary t r = (s.boundary t r).map (·.behind ts index line) := by
  simp only [boundary, closeBlocks_behind, dropKey_behind]
  cases (s.closeBlocks none).dropKey with
  | error e => rfl
  | ok s => simp only [Except.map, emit_behind, moveTo_behind]; rfl

theorem flowStart_behind (t : Token) (r : Text) :
    (s.behind ts index line).flowStart t r = (s.flowStart t r).map (·.behind ts index line) := by
  simp only [flowStart, markKey_behind]
  cases s.markKey with
  | error e => rfl
  | ok s => simp only [Except.map, emit_behind, moveTo_behind]; rfl

theorem flowEnd_behind (t : Token) (r : Text) :
    (s.behind ts index line).flowEnd t r = (s.flowEnd t r).map (·.behind ts index line) := by
  simp only [flowEnd, dropKey_behind]
  cases s.dropKey with
  | error e => rfl
  | ok s =>
    simp only [Except.map, emit_behind, moveTo_behind]
    simp only [behind]
    cases s.outer <;> rfl

theorem flowEntry_behind (r : Text) :
    (s.behind ts index line).flowEntry r = (s.flowEntry r).map (·.behind ts index line) := by
  simp only [flowEntry, dropKey_behind]
  cases s.dropKey with
  | error e => rfl
  | ok s => simp only [Except.map, emit_behind, moveTo_behind]; rfl

theorem blockEntry_behind (r : Text) :
    (s.behind ts index line).blockEntry r = (s.blockEntry r).map (·.behind ts index line) := by
  simp only [blockEntry, openHere_behind]
  cases s.openHere .blockSequenceStart with
  | error e => rfl
  | ok s =>
    simp only [Except.map, Except.bind, dropKey_behind]
    cases s.dropKey with
    | error e => rfl
    | ok s => simp only [emit_behind, moveTo_behind]; rfl

theorem explicitKey_behind (r : Text) :
    (s.behind ts index line).explicitKey r = (s.explicitKey r).map (·.behind ts index line) := by
  simp only [explicitKey, openHere_behind]
  cases s.openHere .blockMappingStart with
  | error e => rfl
  | ok s =>
    simp only [Except.map, Except.bind, dropKey_behind]
    cases s.dropKey with
    | error e => rfl
    | ok s => simp only [emit_behind, moveTo_behind, inFlow_behind]; rfl

theorem value_behind (r : Text) :
    (s.behind ts index line).value r = (s.value r).map (·.behind ts index line) := by
  cases candidate : s.candidate with
  | some k =>
    have same : (s.behind ts index line).candidate = some (k.behind ts.length index line) := by
      simp [behind, candidate]
    simp only [value, same, candidate, KeyCandidate.behind, insert_behind, openBlock_behind,
      Cursor.column_behind, emit_behind, moveTo_behind]
    rfl
  | none =>
    have same : (s.behind ts index line).candidate = none := by simp [behind, candidate]
    simp only [value, same, candidate, openHere_behind]
    cases s.openHere .blockMappingStart with
    | error e => rfl
    | ok s => simp only [Except.map, emit_behind, moveTo_behind, inFlow_behind]; rfl

theorem item_behind (read : Except Error (Token × Text)) :
    (s.behind ts index line).item read = (s.item read).map (·.behind ts index line) := by
  simp only [item, markKey_behind]
  cases s.markKey with
  | error e => rfl
  | ok s =>
    cases read with
    | error e => rfl
    | ok p => simp only [Except.map, Except.bind, emit_behind, moveTo_behind]; rfl

theorem plain_behind : (s.behind ts index line).plain = s.plain.map (·.behind ts index line) := by
  simp only [plain, markKey_behind]
  cases s.markKey with
  | error e => rfl
  | ok s =>
    simp only [Except.map, Except.bind, blocks_behind, inFlow_behind, column_behind, rest_behind]
    cases readPlain s.inFlow ((s.blocks.head?.map (· + 1)).getD 0) s.cursor.column .empty
        s.cursor.rest with
    | error e => rfl
    | ok p => simp only [emit_behind, moveTo_behind]; rfl

theorem block_behind (isLiteral : Bool) (r : Text) :
    (s.behind ts index line).block isLiteral r =
      (s.block isLiteral r).map (·.behind ts index line) := by
  simp only [block, dropKey_behind]
  cases s.dropKey with
  | error e => rfl
  | ok s =>
    simp only [Except.map, Except.bind, blocks_behind]
    cases readBlockScalar isLiteral s.blocks.head? r with
    | error e => rfl
    | ok p => simp only [emit_behind, moveTo_behind]; rfl

/-- A choice between two steps is alike where both steps are. -/
theorem ite_alike {p : Prop} [Decidable p] {f : Reader → Reader} {x y x' y' : Except Error Reader}
    (first : x' = x.map f) (second : y' = y.map f) :
    (if p then x' else y') = (if p then x else y).map f := by
  split
  · exact first
  · exact second

/-- One token is read alike. -/
theorem token_behind (c : Char) (r : Text) :
    (s.behind ts index line).token c r = (s.token c r).map (·.behind ts index line) := by
  have directive : (readDirective r).bind (fun p => (s.behind ts index line).boundary p.1 p.2) =
      ((readDirective r).bind fun p => s.boundary p.1 p.2).map (·.behind ts index line) := by
    cases readDirective r with
    | error e => rfl
    | ok p => exact boundary_behind s ts index line p.1 p.2
  unfold token
  dsimp only
  rw [column_behind, inFlow_behind]
  refine ite_alike directive <| ite_alike (boundary_behind ..) <|
    ite_alike (flowStart_behind ..) <| ite_alike (flowStart_behind ..) <|
    ite_alike (flowEnd_behind ..) <| ite_alike (flowEnd_behind ..) <|
    ite_alike (flowEntry_behind ..) <| ite_alike (blockEntry_behind ..) <|
    ite_alike (explicitKey_behind ..) <| ite_alike (value_behind ..) <|
    ite_alike (item_behind ..) <| ite_alike (item_behind ..) <| ite_alike (item_behind ..) <|
    ite_alike (block_behind ..) <| ite_alike (block_behind ..) <| ite_alike (item_behind ..) <|
    ite_alike (plain_behind ..) rfl

theorem finish_behind :
    (s.behind ts index line).finish = s.finish.map (ts ++ ·) := by
  simp only [finish, closeBlocks_behind, dropKey_behind]
  cases (s.closeBlocks none).dropKey <;> rfl

end Reader

end

/-- **The rest of a text gives the same tokens, whatever stands before it.** -/
theorem Reader.run_behind (s : Reader) (ts : List Token) (index line : Nat) :
    (s.behind ts index line).run = s.run.map (ts ++ ·) := by
  induction s using Reader.run.induct with
  | case1 s ih =>
    rw [run, run, ready_behind]
    cases ready : s.ready with
    | error e => rfl
    | ok s' =>
      simp only [Except.map, Except.bind, rest_behind]
      split
      · exact finish_behind s' ts index line
      · rename_i c r rest
        rw [token_behind]
        cases token : s'.token c r with
        | error e => rfl
        | ok s'' =>
          by_cases shorter : s''.cursor.rest.length < s.cursor.rest.length
          · simp [Except.map, shorter, ih s'' shorter]
          · simp [Except.map, shorter]

end MdxPress.Yaml

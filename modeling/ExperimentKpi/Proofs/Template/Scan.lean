/-
# Pieces found byte by byte

The pieces of a text can be found in its bytes (`scan`): two positions move from the left, one to the
start of the plain stretch and one to the byte that is looked at, and what stands between them is sliced
out. The bytes that open and close a piece are characters of their own and occur in no other character,
so the positions never lie within a character when something is sliced (`scanFrom_eq`). The invariant of
the scan is that the text is split at the two positions and that what stands between them is plain.

So the scan finds the pieces, which tile the text (`tiles_of_pieces`), or fails where they do, at a
delimiter that is never closed. No slice on the way lies across a character or behind the text, nor does
one that takes the trim marks off what stands between delimiters (`Inner.cut?_eq`).

Key definitions: `scan`, `Inner.cut?`, `Covers`, `Tiles`.
Key theorems: `scanFrom_opened`, `scanFrom_eq`, `Inner.cut?_eq`, `tiles_of_pieces`, `scan_tiles`.
-/
import ExperimentKpi.Proofs.Text.Slice
import ExperimentKpi.Proofs.Template.Unclosed

namespace ExperimentKpi.Template

open Text (utf8 slice?)

/-! ### Scanning bytes -/

/-- Why a scan fails: it slices where no slice is, or the template is refused. -/
inductive ScanError where
  | slice (start stop : Nat)
  | refused (e : ParseError)

/-- The slice between two byte offsets. -/
def cut (source : String) (start stop : Nat) : Except ScanError String :=
  match slice? source start stop with
  | some part => .ok part
  | none => .error (.slice start stop)

/-- The kind that two bytes open. -/
def openedBy? (a b : UInt8) : Option Delimiter :=
  if a = '{'.toUInt8 then
    if b = '{'.toUInt8 then some .output
    else if b = '%'.toUInt8 then some .tag
    else if b = '#'.toUInt8 then some .comment
    else none
  else none

/-- How many bytes stand before the first `c` that the byte of a closing brace follows. -/
def findClosing? (c : UInt8) : List UInt8 → Option Nat
  | a :: b :: r =>
    if a = c ∧ b = '}'.toUInt8 then some 0 else (findClosing? c (b :: r)).map (· + 1)
  | _ => none

/-- The plain stretch between two byte offsets, unless it is empty. -/
def plainBetween (source : String) (start stop : Nat) : Except ScanError (List (Nat × Piece)) :=
  if start < stop then (cut source start stop).map fun text => [(start, .plain text.toList)]
  else .ok []

/-- The pieces of a text from the byte `start` on. No piece has been found yet, and nothing is opened up
to the byte `pos`. -/
def scanFrom (source : String) (start pos : Nat) : Except ScanError (List (Nat × Piece)) :=
  if h : pos + 1 < (utf8 source).length then
    match openedBy? (utf8 source)[pos] (utf8 source)[pos + 1] with
    | none => scanFrom source start (pos + 1)
    | some kind => do
      let before ← plainBetween source start pos
      let body ← cut source (pos + 2) (utf8 source).length
      match findClosing? kind.closing.toUInt8 (utf8 body) with
      | none => .error (.refused ⟨pos, .unclosedDelimiter (String.ofList [kind.closing, '}'])⟩)
      | some length =>
        let inner ← cut source (pos + 2) (pos + 2 + length)
        let rest ← scanFrom source (pos + 2 + length + 2) (pos + 2 + length + 2)
        return before ++ (pos, .delimited kind inner.toList) :: rest
  else plainBetween source start (utf8 source).length
termination_by (utf8 source).length - pos

/-- The pieces of a text, found byte by byte. -/
def scan (source : String) : Except ScanError (List (Nat × Piece)) :=
  scanFrom source 0 0

/-- Whether a text starts with a dash, and the text without it. -/
def firstDash? (s : String) : Option (Bool × String) :=
  if s.toList.head? = some '-' then (slice? s 1 s.utf8ByteSize).map (true, ·) else some (false, s)

/-- Whether a text ends with a dash, and the text without it. -/
def lastDash? (s : String) : Option (Bool × String) :=
  if s.toList.getLast? = some '-' then (slice? s 0 (s.utf8ByteSize - 1)).map (true, ·)
  else some (false, s)

/-- The marks and the content of an inner text, from which the marks are sliced off. -/
def Inner.cut? (inner : String) : Option Inner := do
  let (trimBefore, body) ← firstDash? inner
  let (trimAfter, content) ← lastDash? body
  return ⟨trimBefore, trimAfter, Text.trim content.toList⟩

/-! ### Bytes and characters -/

/-- The bytes of characters in a row. -/
def bytesOf (s : List Char) : List UInt8 :=
  s.flatMap String.utf8EncodeChar

theorem bytesOf_cons (c : Char) (s : List Char) :
    bytesOf (c :: s) = String.utf8EncodeChar c ++ bytesOf s :=
  List.flatMap_cons

theorem bytesOf_append (s t : List Char) : bytesOf (s ++ t) = bytesOf s ++ bytesOf t :=
  List.flatMap_append

theorem length_bytesOf (s : List Char) : (bytesOf s).length = byteLength s := by
  induction s with
  | nil => rfl
  | cons c s ih =>
    rw [bytesOf_cons, List.length_append, String.length_utf8EncodeChar, ih]
    rfl

theorem utf8_eq_bytesOf (source : String) : utf8 source = bytesOf source.toList :=
  Text.utf8_eq_flatMap source

theorem utf8ByteSize_ofList (s : List Char) : (String.ofList s).utf8ByteSize = byteLength s := by
  have hlength : (utf8 (String.ofList s)).length = (String.ofList s).utf8ByteSize := rfl
  rw [← hlength, utf8_eq_bytesOf, String.toList_ofList, length_bytesOf]

theorem utf8ByteSize_eq (source : String) : source.utf8ByteSize = byteLength source.toList := by
  rw [← utf8ByteSize_ofList, String.ofList_toList]

/-- A part of a text is the slice between its ends. -/
theorem slice?_eq {source : String} {a m b : List Char} (h : source.toList = a ++ m ++ b) :
    slice? source (byteLength a) (byteLength (a ++ m)) = some (String.ofList m) := by
  have hsource : source = String.ofList a ++ String.ofList m ++ String.ofList b := by
    rw [← String.ofList_append, ← String.ofList_append, ← h, String.ofList_toList]
  have hslice := Text.slice?_append (String.ofList a) (String.ofList m) (String.ofList b)
  rwa [← hsource, ← String.ofList_append, utf8ByteSize_ofList, utf8ByteSize_ofList] at hslice

theorem cut_eq {source : String} {a m b : List Char} (h : source.toList = a ++ m ++ b) :
    cut source (byteLength a) (byteLength (a ++ m)) = .ok (String.ofList m) := by
  rw [cut, slice?_eq h]

/-- The first byte of a character that is below 128 is the character. -/
theorem eq_of_head_bytesOf {c d : Char} {s : List Char} (hc : c.toNat < 128)
    (h : (bytesOf (d :: s)).head? = some c.toUInt8) : d = c := by
  have hmem : c.toUInt8 ∈ String.utf8EncodeChar d := by
    have hne : String.utf8EncodeChar d ≠ [] := by
      rw [← List.length_pos_iff, String.length_utf8EncodeChar]
      exact d.utf8Size_pos
    rw [bytesOf_cons, List.head?_append_of_ne_nil _ hne] at h
    exact List.mem_of_mem_head? h
  exact (Text.mem_utf8EncodeChar_iff hc).mp hmem

theorem Delimiter.closing_lt (kind : Delimiter) : kind.closing.toNat < 128 := by
  cases kind <;> decide

/-- What two characters do not open their bytes do not open. -/
theorem openedBy?_eq_none {s : List Char} (h : opened? ('{' :: s) = none) :
    ∀ b ∈ (bytesOf s).head?, openedBy? '{'.toUInt8 b = none := by
  intro b hb
  cases s with
  | nil => cases hb
  | cons d s =>
    have hchar : ∀ kind : Delimiter, b ≠ kind.opening.toUInt8 := by
      rintro kind rfl
      obtain rfl := eq_of_head_bytesOf (c := kind.opening) (by cases kind <;> decide) hb
      cases kind <;> cases h
    have houtput := hchar .output
    have htag := hchar .tag
    have hcomment := hchar .comment
    simp only [Delimiter.opening] at houtput htag hcomment
    simp [openedBy?, houtput, htag, hcomment]

theorem openedBy?_opening (kind : Delimiter) :
    openedBy? '{'.toUInt8 kind.opening.toUInt8 = some kind := by
  cases kind <;> rfl

/-! ### Closing delimiters in bytes -/

theorem findClosing?_append {c : UInt8} {bs r : List UInt8} (h : ∀ b ∈ bs, b ≠ c) :
    findClosing? c (bs ++ r) = (findClosing? c r).map (· + bs.length) := by
  induction bs with
  | nil => simp
  | cons b bs ih =>
    obtain ⟨hb, hbs⟩ := List.forall_mem_cons.mp h
    cases hr : bs ++ r with
    | nil =>
      obtain ⟨rfl, rfl⟩ := List.append_eq_nil_iff.mp hr
      rfl
    | cons x rest =>
      rw [List.cons_append, hr, findClosing?, if_neg fun hc => hb hc.1, ← hr, ih hbs,
        Option.map_map]
      rfl

theorem closeAt?_cons_of_ne {a c : Char} (h : a ≠ c) (s : List Char) :
    closeAt? c (a :: s) = (closeAt? c s).map fun (inner, rest) => (a :: inner, rest) := by
  cases s with
  | nil => rfl
  | cons b s => rw [closeAt?, if_neg fun hc => h hc.1]

/-- **The first closing delimiter is found by its bytes**, behind as many of them as the text before it
has. -/
theorem findClosing?_bytesOf {c : Char} (hc : c.toNat < 128) (s : List Char) :
    findClosing? c.toUInt8 (bytesOf s) = (closeAt? c s).map fun (inner, _) => byteLength inner := by
  induction s with
  | nil => rfl
  | cons a s ih =>
    have hrest : ∀ m : Option (List Char × List Char),
        (m.map fun (inner, _) => byteLength inner).map (· + a.utf8Size) =
          (m.map fun (inner, rest) => (a :: inner, rest)).map fun (inner, _) => byteLength inner := by
      intro m
      cases m with
      | none => rfl
      | some found => exact congrArg some (Nat.add_comm _ _)
    by_cases ha : a = c
    · subst ha
      have hsize : a.utf8Size = 1 := by
        rw [← String.length_utf8EncodeChar, Text.utf8EncodeChar_ascii hc]
        rfl
      rw [bytesOf_cons, Text.utf8EncodeChar_ascii hc, List.singleton_append]
      cases s with
      | nil => rfl
      | cons d s =>
        obtain ⟨x, bs, hbytes⟩ : ∃ x bs, bytesOf (d :: s) = x :: bs := by
          apply List.exists_cons_of_length_pos
          rw [length_bytesOf]
          exact Nat.lt_of_lt_of_le d.utf8Size_pos (Nat.le_add_right _ _)
        have hbrace : x = '}'.toUInt8 ↔ d = '}' := by
          constructor
          · rintro rfl
            exact eq_of_head_bytesOf (by decide) (by rw [hbytes]; rfl)
          · rintro rfl
            exact (List.cons.inj hbytes).1.symm
        rw [hbytes, findClosing?, closeAt?, ← hbytes, ih]
        by_cases hd : d = '}'
        · rw [if_pos ⟨rfl, hbrace.mpr hd⟩, if_pos ⟨rfl, hd⟩]
          rfl
        · rw [if_neg fun h => hd (hbrace.mp h.2), if_neg fun h => hd h.2, ← hrest, hsize]
    · have hskip : ∀ b ∈ String.utf8EncodeChar a, b ≠ c.toUInt8 := by
        rintro b hb rfl
        exact ha ((Text.mem_utf8EncodeChar_iff hc).mp hb)
      rw [bytesOf_cons, findClosing?_append hskip, ih, closeAt?_cons_of_ne ha, ← hrest,
        String.length_utf8EncodeChar]

/-! ### The scan -/

section

variable {source : String} {start pos : Nat}

/-- The scan goes on behind a byte that opens nothing with the next one. -/
theorem scanFrom_step {a : UInt8} {r : List UInt8} (hdrop : (utf8 source).drop pos = a :: r)
    (h : ∀ b ∈ r.head?, openedBy? a b = none) :
    scanFrom source start pos = scanFrom source start (pos + 1) := by
  have hlength : (utf8 source).length - pos = r.length + 1 := by
    rw [← List.length_drop, hdrop, List.length_cons]
  cases r with
  | nil =>
    rw [List.length_nil] at hlength
    rw [scanFrom, dif_neg (by omega), scanFrom, dif_neg (by omega)]
  | cons b r =>
    rw [List.length_cons] at hlength
    have hlt : pos + 1 < (utf8 source).length := by omega
    have hfirst : (utf8 source)[pos] = a := by
      rw [List.getElem_eq_iff, ← Nat.add_zero pos, ← List.getElem?_drop, hdrop]
      rfl
    have hsecond : (utf8 source)[pos + 1] = b := by
      rw [List.getElem_eq_iff, ← List.getElem?_drop, hdrop]
      rfl
    conv => lhs; rw [scanFrom, dif_pos hlt, hfirst, hsecond, h b rfl]

/-- The scan goes on behind bytes none of which is a brace. -/
theorem scanFrom_skip {bs r : List UInt8} (hbs : ∀ b ∈ bs, b ≠ '{'.toUInt8)
    (hdrop : (utf8 source).drop pos = bs ++ r) :
    scanFrom source start pos = scanFrom source start (pos + bs.length) := by
  induction bs generalizing pos with
  | nil => rfl
  | cons b bs ih =>
    obtain ⟨hb, hbs⟩ := List.forall_mem_cons.mp hbs
    have hstep : scanFrom source start pos = scanFrom source start (pos + 1) :=
      scanFrom_step hdrop fun x _ => by rw [openedBy?, if_neg hb]
    have hnext : (utf8 source).drop (pos + 1) = bs ++ r := by
      rw [← List.drop_drop, hdrop]
      rfl
    rw [hstep, ih hbs hnext, List.length_cons, Nat.add_assoc, Nat.add_comm 1]

/-- **The scan goes on behind a character that opens nothing.** -/
theorem scanFrom_plain {c : Char} {s : List Char} (hdrop : (utf8 source).drop pos = bytesOf (c :: s))
    (h : opened? (c :: s) = none) :
    scanFrom source start pos = scanFrom source start (pos + c.utf8Size) := by
  rw [bytesOf_cons] at hdrop
  by_cases hc : c = '{'
  · subst hc
    exact scanFrom_step hdrop (openedBy?_eq_none h)
  · rw [← String.length_utf8EncodeChar]
    refine scanFrom_skip ?_ hdrop
    rintro b hb rfl
    exact hc ((Text.mem_utf8EncodeChar_iff (by decide)).mp hb)

end

/-! ### The pieces of the scan -/

/-- The plain stretch that starts at a byte, unless it is empty. -/
def plainAt (offset : Nat) (content : List Char) : List (Nat × Piece) :=
  if content = [] then [] else [(offset, .plain content)]

theorem plainBetween_eq {source : String} {a w t : List Char} (h : source.toList = a ++ w ++ t) :
    plainBetween source (byteLength a) (byteLength (a ++ w)) = .ok (plainAt (byteLength a) w) := by
  rw [plainBetween, cut_eq h, plainAt]
  by_cases hw : w = []
  · subst hw
    rw [List.append_nil, if_neg (Nat.lt_irrefl _), if_pos rfl]
  · have hpos : byteLength w ≠ 0 := mt byteLength_eq_zero_iff.mp hw
    rw [if_pos (by rw [byteLength_append]; omega), if_neg hw, Except.map, String.toList_ofList]

/-- A stretch that is taken as plain comes first, and what is behind it follows. -/
theorem piecesFrom_stretch {offset : Nat} {w t : List Char} (h : plainRun (w ++ t) = (w, t)) :
    piecesFrom offset (w ++ t) =
      (piecesFrom (offset + byteLength w) t).map (plainAt offset w ++ ·) := by
  cases w with
  | nil => exact (congrFun Except.map_id _).symm
  | cons c w =>
    rw [List.cons_append] at h ⊢
    have hnone : opened? (c :: (w ++ t)) = none := by
      by_contra hsome
      rw [plainRun_of_opened (Option.isSome_iff_ne_none.mpr hsome)] at h
      cases h
    rw [plainRun_of_plain hnone] at h
    have hrest : plainRun (w ++ t) = (w, t) :=
      Prod.ext (List.cons.inj (Prod.mk.inj h).1).2 (Prod.mk.inj h).2
    rw [piecesFrom_of_plain hnone, hrest]
    rfl

theorem byteLength_opening (kind : Delimiter) : byteLength ['{', kind.opening] = 2 := by
  cases kind <;> decide

theorem byteLength_source (kind : Delimiter) (inner : List Char) :
    byteLength (Piece.delimited kind inner).source = 2 + byteLength inner + 2 := by
  have hclosing : byteLength [kind.closing, '}'] = 2 := by cases kind <;> decide
  have hsource : (Piece.delimited kind inner).source =
      ['{', kind.opening] ++ inner ++ [kind.closing, '}'] := rfl
  rw [hsource, byteLength_append, byteLength_append, byteLength_opening, hclosing]

/-- What stands behind an opening delimiter is cut out behind its two bytes. -/
theorem cut_opened {source : String} {s m b : List Char} (kind : Delimiter)
    (h : source.toList = s ++ '{' :: kind.opening :: m ++ b) :
    cut source (byteLength s + 2) (byteLength s + 2 + byteLength m) = .ok (String.ofList m) := by
  have hcut : cut source (byteLength (s ++ ['{', kind.opening]))
      (byteLength (s ++ ['{', kind.opening] ++ m)) = .ok (String.ofList m) :=
    cut_eq (b := b) (by rw [h]; simp)
  rwa [byteLength_append _ m, byteLength_append, byteLength_opening] at hcut

/-- **Where something is opened, the scan looks for what closes it** and goes on behind that. -/
theorem scanFrom_opened {source : String} {a w body : List Char} {kind : Delimiter}
    (h : source.toList = a ++ w ++ '{' :: kind.opening :: body) :
    scanFrom source (byteLength a) (byteLength (a ++ w)) =
      match closeAt? kind.closing body with
      | none => .error (.refused ⟨byteLength (a ++ w),
          .unclosedDelimiter (String.ofList [kind.closing, '}'])⟩)
      | some (inner, _) =>
        let stop := byteLength (a ++ w ++ (Piece.delimited kind inner).source)
        (scanFrom source stop stop).map fun ps =>
          plainAt (byteLength a) w ++ (byteLength (a ++ w), .delimited kind inner) :: ps := by
  have hbytes : utf8 source =
      bytesOf (a ++ w) ++ '{'.toUInt8 :: kind.opening.toUInt8 :: bytesOf body := by
    rw [utf8_eq_bytesOf, h, bytesOf_append, bytesOf_cons, bytesOf_cons]
    cases kind <;> rfl
  have hlength : (utf8 source).length = byteLength (a ++ w) + 2 + byteLength body := by
    rw [hbytes, List.length_append, length_bytesOf, List.length_cons, List.length_cons,
      length_bytesOf]
    omega
  have hfirst : (utf8 source)[byteLength (a ++ w)] = '{'.toUInt8 := by
    rw [List.getElem_eq_iff, hbytes, ← length_bytesOf, List.getElem?_append_right (Nat.le_refl _)]
    simp
  have hsecond : (utf8 source)[byteLength (a ++ w) + 1] = kind.opening.toUInt8 := by
    rw [List.getElem_eq_iff, hbytes, ← length_bytesOf, List.getElem?_append_right (by omega)]
    simp
  have hbody : cut source (byteLength (a ++ w) + 2) (utf8 source).length =
      .ok (String.ofList body) := by
    rw [hlength]
    exact cut_opened kind (b := []) (by rw [h, List.append_nil])
  have hfound : findClosing? kind.closing.toUInt8 (utf8 (String.ofList body)) =
      (closeAt? kind.closing body).map fun (inner, _) => byteLength inner := by
    rw [utf8_eq_bytesOf, String.toList_ofList, findClosing?_bytesOf kind.closing_lt]
  rw [scanFrom, dif_pos (by omega), hfirst, hsecond, openedBy?_opening, plainBetween_eq h]
  simp only [hbody, bind, Except.bind, hfound]
  cases hclose : closeAt? kind.closing body with
  | none => rfl
  | some found =>
    obtain ⟨inner, rest⟩ := found
    have hinner : cut source (byteLength (a ++ w) + 2) (byteLength (a ++ w) + 2 + byteLength inner) =
        .ok (String.ofList inner) :=
      cut_opened kind (b := kind.closing :: '}' :: rest) (by rw [h, closeAt?_append hclose]; simp)
    have hstop : byteLength (a ++ w ++ (Piece.delimited kind inner).source) =
        byteLength (a ++ w) + 2 + byteLength inner + 2 := by
      rw [byteLength_append, byteLength_source]
      omega
    simp only [Option.map_some, hinner, hstop, String.toList_ofList]
    cases scanFrom source _ _ <;> rfl

/-- **The scan finds the pieces.** Of the stretch `w` it knows already that it is plain. -/
theorem scanFrom_eq {source : String} {a w t : List Char} (hsource : source.toList = a ++ w ++ t)
    (hrun : plainRun (w ++ t) = (w ++ (plainRun t).1, (plainRun t).2)) :
    scanFrom source (byteLength a) (byteLength (a ++ w)) =
      (piecesFrom (byteLength a) (w ++ t)).mapError .refused := by
  -- The text from the second position on gets shorter, and the split at both positions is kept.
  induction hn : t.length using Nat.strong_induction_on generalizing a w t with
  | _ n ih =>
    cases t with
    | nil =>
      have hlength : (utf8 source).length = byteLength (a ++ w) := by
        rw [utf8_eq_bytesOf, length_bytesOf, hsource, List.append_nil]
      have hplain : plainRun (w ++ []) = (w, []) := by rw [hrun, plainRun, List.append_nil]
      rw [scanFrom, dif_neg (by omega), hlength, plainBetween_eq hsource,
        piecesFrom_stretch hplain, piecesFrom.eq_def]
      simp [Except.map, Except.mapError]
    | cons c t =>
      cases hopen : opened? (c :: t) with
      | none =>
        -- One more character is known to be plain.
        have hdrop : (utf8 source).drop (byteLength (a ++ w)) = bytesOf (c :: t) := by
          rw [utf8_eq_bytesOf, hsource, bytesOf_append, ← length_bytesOf, List.drop_left]
        have hlonger : plainRun ((w ++ [c]) ++ t) =
            ((w ++ [c]) ++ (plainRun t).1, (plainRun t).2) := by
          rw [List.append_assoc, List.singleton_append, hrun, plainRun_of_plain hopen,
            List.append_assoc]
          rfl
        have hnext := ih t.length (by rw [← hn, List.length_cons]; omega) (a := a) (w := w ++ [c])
          (by rw [hsource]; simp) hlonger rfl
        have hsize : byteLength (a ++ (w ++ [c])) = byteLength (a ++ w) + c.utf8Size := by
          rw [← List.append_assoc, byteLength_append]
          rfl
        rw [hsize, List.append_assoc, List.singleton_append] at hnext
        rw [scanFrom_plain hdrop hopen, hnext]
      | some found =>
        obtain ⟨kind, body⟩ := found
        rw [plainRun_of_opened (by rw [hopen]; rfl), List.append_nil] at hrun
        obtain ⟨rfl, rfl⟩ := List.cons.inj (opened?_append hopen)
        rw [piecesFrom_stretch hrun, scanFrom_opened hsource, ← byteLength_append]
        cases hclose : closeAt? kind.closing body with
        | none =>
          rw [piecesFrom_of_unclosed hclose]
          rfl
        | some found =>
          obtain ⟨inner, rest⟩ := found
          have hshorter : rest.length < n := by
            have hlength := closeAt?_length hclose
            rw [← hn, List.length_cons, List.length_cons]
            omega
          have hrest := ih rest.length hshorter (a := a ++ w ++ (Piece.delimited kind inner).source)
            (w := []) (by rw [hsource, closeAt?_append hclose]; simp [Piece.source]) rfl rfl
          rw [List.append_nil, List.nil_append] at hrest
          rw [piecesFrom_of_opened hopen hclose, ← byteLength_append]
          simp only [hrest]
          cases piecesFrom _ rest <;> rfl

/-- **Byte by byte or not, the same pieces are found**, and no slice is asked for that is none. -/
theorem scan_eq (source : String) :
    scan source = (pieces source.toList).mapError ScanError.refused :=
  scanFrom_eq (a := []) (w := []) (t := source.toList) rfl rfl

/-! ### Trim marks -/

/-- A first dash is sliced off, and the text goes on behind one byte. -/
theorem firstDash?_cons {s : String} {r : List Char} (h : s.toList = '-' :: r) :
    firstDash? s = some (true, String.ofList r) := by
  have hslice : slice? s (byteLength ['-']) (byteLength (['-'] ++ r)) = some (String.ofList r) :=
    slice?_eq (b := []) (by rw [h]; simp)
  have hsize : s.utf8ByteSize = byteLength (['-'] ++ r) := by
    rw [utf8ByteSize_eq, h]
    rfl
  rw [firstDash?, h, if_pos List.head?_cons, hsize]
  exact congrArg (Option.map (true, ·)) hslice

/-- A last dash is sliced off, and the text ends one byte earlier. -/
theorem lastDash?_append {s : String} {r : List Char} (h : s.toList = r ++ ['-']) :
    lastDash? s = some (true, String.ofList r) := by
  have hslice : slice? s (byteLength []) (byteLength r) = some (String.ofList r) :=
    slice?_eq (a := []) (b := ['-']) (by rw [h]; simp)
  have hsize : s.utf8ByteSize - 1 = byteLength r := by
    rw [utf8ByteSize_eq, h, byteLength_append]
    rfl
  rw [lastDash?, h, if_pos List.getLast?_concat, hsize]
  exact congrArg (Option.map (true, ·)) hslice

/-- What is left of a text without its first dash. -/
theorem Inner.cut?_of_firstDash {inner body : String} {before : Bool}
    (h : firstDash? inner = some (before, body)) :
    Inner.cut? inner = some ⟨before, body.toList.getLast? == some '-',
      Text.trim (if body.toList.getLast? == some '-' then body.toList.dropLast
        else body.toList)⟩ := by
  rw [Inner.cut?, h]
  by_cases hlast : body.toList.getLast? = some '-'
  · obtain ⟨r, hr⟩ := List.getLast?_eq_some_iff.mp hlast
    simp [lastDash?_append hr, hr]
  · simp [lastDash?, hlast]

/-- **The marks are sliced off between characters.** -/
theorem Inner.cut?_eq (inner : String) : Inner.cut? inner = some (Inner.ofText inner.toList) := by
  cases h : inner.toList with
  | nil =>
    have hfirst : firstDash? inner = some (false, inner) := by rw [firstDash?, h]; rfl
    rw [Inner.cut?_of_firstDash hfirst, h]
    rfl
  | cons c r =>
    by_cases hc : c = '-'
    · subst hc
      rw [Inner.cut?_of_firstDash (firstDash?_cons h), String.toList_ofList]
      rfl
    · have hfirst : firstDash? inner = some (false, inner) := by
        rw [firstDash?, h, List.head?_cons, if_neg fun hdash => hc (Option.some.inj hdash)]
      rw [Inner.cut?_of_firstDash hfirst, h, Inner.ofText]
      exact fun r' hdash => hc (List.cons.inj hdash).1

/-! ### What the pieces are -/

/-- Pieces one behind the other, from the byte `start` to the byte `stop`. -/
def Covers (start stop : Nat) : List (Nat × Piece) → Prop
  | [] => start = stop
  | (offset, p) :: ps => offset = start ∧ Covers (start + byteLength p.source) stop ps

theorem covers_located (offset : Nat) (ps : List Piece) :
    Covers offset (offset + byteLength (piecesSource ps)) (located offset ps) := by
  induction ps generalizing offset with
  | nil => rfl
  | cons p ps ih =>
    rw [piecesSource_cons, byteLength_append, ← Nat.add_assoc]
    exact ⟨rfl, ih _⟩

/-- Pieces are the text that they cover, each at its bytes. Nothing is opened in a plain stretch, and
what stands between delimiters ends at the first closing one. -/
structure Tiles (source : String) (ps : List (Nat × Piece)) : Prop where
  covers : Covers 0 source.utf8ByteSize ps
  boundaries : ∀ q ∈ ps, String.Pos.Raw.IsValid source ⟨q.1⟩ ∧
    String.Pos.Raw.IsValid source ⟨q.1 + byteLength q.2.source⟩
  content : ∀ q ∈ ps,
    slice? source q.1 (q.1 + byteLength q.2.source) = some (String.ofList q.2.source)
  plain : ∀ offset content, (offset, .plain content) ∈ ps →
    content ≠ [] ∧ ∀ kind : Delimiter, ¬ ['{', kind.opening] <:+: content
  delimited : ∀ offset kind inner, (offset, .delimited kind inner) ∈ ps →
    ¬ [kind.closing, '}'] <:+: inner ++ [kind.closing]

/-- Between boundaries there is a slice, so a slice has boundaries. -/
theorem isValid_of_slice? {source part : String} {start stop : Nat}
    (h : slice? source start stop = some part) :
    String.Pos.Raw.IsValid source ⟨start⟩ ∧ String.Pos.Raw.IsValid source ⟨stop⟩ := by
  rw [slice?] at h
  split at h
  · rename_i hvalid
    exact ⟨hvalid.1, hvalid.2.1⟩
  · cases h

theorem Unopened.absent {s : List Char} (h : Unopened s) (kind : Delimiter) :
    ¬ ['{', kind.opening] <:+: s := by
  intro hoccurs
  have hpair := List.IsChain.infix h hoccurs
  rw [List.isChain_pair] at hpair
  cases kind <;> cases hpair

theorem Unclosed.absent {kind : Delimiter} {inner : List Char} (h : Unclosed kind inner) :
    ¬ [kind.closing, '}'] <:+: inner ++ [kind.closing] := by
  intro hoccurs
  have hpair := List.IsChain.infix h hoccurs
  rw [List.isChain_pair] at hpair
  exact hpair ⟨rfl, rfl⟩

theorem IsTiling.of_plain {qs rs : List Piece} {content : List Char}
    (h : IsTiling (qs ++ .plain content :: rs)) : content ≠ [] ∧ Unopened content := by
  induction qs with
  | nil => cases h with | plain hne hunopened _ _ => exact ⟨hne, hunopened.left_of_append⟩
  | cons q qs ih => cases h with | plain _ _ _ rest | delimited _ rest => exact ih rest

/-- **The pieces of a text tile it.** -/
theorem tiles_of_pieces {source : String} {ps : List (Nat × Piece)}
    (h : pieces source.toList = .ok ps) : Tiles source ps := by
  obtain ⟨qs, rfl, hsource, htiling⟩ := exists_isTiling h
  have hsize : source.utf8ByteSize = 0 + byteLength (piecesSource qs) := by
    rw [utf8ByteSize_eq, hsource, Nat.zero_add]
  have hslice : ∀ q ∈ located 0 qs,
      slice? source q.1 (q.1 + byteLength q.2.source) = some (String.ofList q.2.source) := by
    rintro ⟨offset, p⟩ hmem
    obtain ⟨before, after, rfl, rfl⟩ := mem_located_iff.mp hmem
    rw [Nat.zero_add, ← byteLength_append]
    apply slice?_eq (b := piecesSource after)
    rw [hsource, piecesSource_append, piecesSource_cons, List.append_assoc]
  constructor
  · rw [hsize]
    exact covers_located 0 qs
  · intro q hq
    exact isValid_of_slice? (hslice q hq)
  · exact hslice
  · intro offset content hmem
    obtain ⟨before, after, rfl, -⟩ := mem_located_iff.mp hmem
    exact ⟨htiling.of_plain.1, fun kind => htiling.of_plain.2.absent kind⟩
  · intro offset kind inner hmem
    obtain ⟨before, after, rfl, -⟩ := mem_located_iff.mp hmem
    exact htiling.unclosed.absent

/-- **A text is tiled by its pieces unless a delimiter is reached that is never closed.** They are found
byte by byte, and every slice on the way is one between characters. -/
theorem scan_tiles (source : String) :
    scan source = (pieces source.toList).mapError ScanError.refused ∧
      (∀ inner : String, Inner.cut? inner = some (Inner.ofText inner.toList)) ∧
      (∀ ps, pieces source.toList = .ok ps → Tiles source ps) ∧
      ∀ e, pieces source.toList = .error e ↔
        ∃ before kind rest, Reaches source.toList before kind rest ∧
          ¬ [kind.closing, '}'] <:+: rest ∧
          e = ⟨byteLength (piecesSource before),
            .unclosedDelimiter (String.ofList [kind.closing, '}'])⟩ := by
  refine ⟨scan_eq source, Inner.cut?_eq, fun ps h => tiles_of_pieces h, fun e => ?_⟩
  rw [pieces, piecesFrom_error_iff]
  simp only [Nat.zero_add]

/-- A text whose delimiters overlap, behind a character of two bytes. -/
def overlappingDelimiters : String :=
  "é\x7b\x7b\x7b- x \x7d\x7d\x7b%\x7d%\x7d"

theorem scan_tiles_overlapping :
    pieces overlappingDelimiters.toList =
        .ok [(0, .plain ['é']), (2, .delimited .output "\x7b- x ".toList),
          (11, .delimited .tag ['}'])] ∧
      Tiles overlappingDelimiters [(0, .plain ['é']), (2, .delimited .output "\x7b- x ".toList),
        (11, .delimited .tag ['}'])] := by
  have hpieces : pieces overlappingDelimiters.toList =
      .ok [(0, .plain ['é']), (2, .delimited .output "\x7b- x ".toList),
        (11, .delimited .tag ['}'])] := by decide +kernel
  exact ⟨hpieces, (scan_tiles overlappingDelimiters).2.2.1 _ hpieces⟩

end ExperimentKpi.Template

import Mathlib.Data.List.Basic
import Mathlib.Data.String.Basic

/-!
# URLs with a query

The generic syntax of a hierarchical URL, `scheme://authority/path?query#fragment`: `Url.parse` cuts
the text at the separators and checks the characters of each component, and `queryItems` reads a
query as a list of parameters, with percent-decoding as UTF-8.

The second half counts bytes.  A percent triple stands for one byte and takes three characters, so
the decoded text of a component is shorter than the component by two for each percent sign
(`length_percentDecode`).  This is what decides whether decoding can give back a given text.
-/

set_option autoImplicit false

namespace Url

/-! ## Characters -/

/-- The characters that stand for themselves everywhere. -/
def isUnreserved (c : Char) : Bool := c.isAlphanum || "-._~".toList.contains c

/-- The sub-delimiters. -/
def isSubDelim (c : Char) : Bool := "!$&'()*+,;=".toList.contains c

/-- The characters of a path, apart from the slash. -/
def isPathChar (c : Char) : Bool := isUnreserved c || isSubDelim c || ":@".toList.contains c

/-- The characters of a query or a fragment. -/
def isQueryChar (c : Char) : Bool := isPathChar c || "/?".toList.contains c

/-- The value of a hexadecimal digit. -/
def hexDigit? (c : Char) : Option ℕ :=
  if '0' ≤ c ∧ c ≤ '9' then some (c.toNat - '0'.toNat)
  else if 'a' ≤ c ∧ c ≤ 'f' then some (c.toNat - 'a'.toNat + 10)
  else if 'A' ≤ c ∧ c ≤ 'F' then some (c.toNat - 'A'.toNat + 10)
  else none

/-! ## Components -/

/-- Cut at the first `sep`. -/
def cut (sep : Char) : List Char → List Char × Option (List Char)
  | [] => ([], none)
  | c :: l => if c = sep then ([], some l) else ((c :: (cut sep l).1), (cut sep l).2)

/-- Every character is allowed by `ok`, or belongs to a percent triple. -/
def valid (ok : Char → Bool) : List Char → Bool
  | [] => true
  | c :: l =>
    if c = '%' then
      match l with
      | a :: b :: l => (hexDigit? a).isSome && (hexDigit? b).isSome && valid ok l
      | _ => false
    else ok c && valid ok l

/-- The bytes a component stands for. -/
def percentDecode : List Char → Option (List UInt8)
  | [] => some []
  | c :: l =>
    if c = '%' then
      match l with
      | a :: b :: l => do
        return UInt8.ofNat ((← hexDigit? a) * 16 + (← hexDigit? b)) :: (← percentDecode l)
      | _ => none
    else (percentDecode l).map (String.utf8EncodeChar c ++ ·)

/-- The text a component stands for. -/
def decodeComponent (l : List Char) : Option String :=
  (percentDecode l).bind fun bytes ↦ String.fromUTF8? bytes.toByteArray

/-- The components of a URL. -/
structure Parts where
  scheme : List Char
  authority : List Char
  path : Option (List Char)
  query : Option (List Char)
  fragment : Option (List Char)

/-- A scheme is a letter followed by letters, digits, plus, minus and dot. -/
def validScheme : List Char → Bool
  | [] => false
  | c :: l => c.isAlpha && l.all fun c ↦ c.isAlphanum || "+-.".toList.contains c

/-- Every component has the characters it may have. -/
def Parts.valid (p : Parts) : Bool :=
  validScheme p.scheme &&
  Url.valid (fun c ↦ isUnreserved c || isSubDelim c || ":@".toList.contains c) p.authority &&
  p.path.all (Url.valid fun c ↦ isPathChar c || c = '/') &&
  p.query.all (Url.valid isQueryChar) &&
  p.fragment.all (Url.valid isQueryChar)

/-- Cut a URL into its components, if it is one. -/
def parse (l : List Char) : Option Parts :=
  let (l, fragment) := cut '#' l
  let (l, query) := cut '?' l
  match cut ':' l with
  | (scheme, some ('/' :: '/' :: l)) =>
    let p : Parts :=
      { scheme := scheme, authority := (cut '/' l).1, path := (cut '/' l).2, query := query
        fragment := fragment }
    if p.valid then some p else none
  | _ => none

/-- One parameter of a query: its name, and its value if there is an equals sign. -/
def decodeItem (item : List Char) : Option (String × Option String) := do
  let name ← decodeComponent (cut '=' item).1
  match (cut '=' item).2 with
  | none => return (name, none)
  | some value => return (name, some (← decodeComponent value))

/-- The parameters of a query. -/
def queryItems (query : List Char) : Option (List (String × Option String)) :=
  (query.splitOn '&').mapM decodeItem

/-! ## Cutting -/

theorem cut_append {sep : Char} {p : List Char} (h : sep ∉ p) (l : List Char) :
    cut sep (p ++ l) = (p ++ (cut sep l).1, (cut sep l).2) := by
  induction p with
  | nil => rfl
  | cons c p ih =>
    have hc : c ≠ sep := fun hc ↦ h (hc ▸ List.mem_cons_self)
    rw [List.cons_append, cut, if_neg hc, ih fun hp ↦ h (List.mem_cons_of_mem c hp)]
    rfl

theorem cut_append_cons {sep : Char} {p : List Char} (h : sep ∉ p) (l : List Char) :
    cut sep (p ++ sep :: l) = (p, some l) := by
  rw [cut_append h, cut, if_pos rfl, List.append_nil]

theorem cut_of_notMem {sep : Char} {l : List Char} (h : sep ∉ l) : cut sep l = (l, none) := by
  have := cut_append h []
  rwa [List.append_nil, cut, List.append_nil] at this

/-- Nothing is cut off exactly when the separator does not occur. -/
theorem length_cut_le (sep : Char) (l : List Char) :
    (cut sep l).1.length ≤ l.length ∧ ((cut sep l).1.length = l.length → sep ∉ l) := by
  induction l with
  | nil => simp [cut]
  | cons c l ih =>
    rw [cut]
    split
    · simp
    · rename_i hc
      refine ⟨Nat.succ_le_succ ih.1, fun h ↦ ?_⟩
      rw [List.mem_cons, not_or]
      exact ⟨fun he ↦ hc he.symm, ih.2 (Nat.succ_injective h)⟩

theorem mem_of_mem_cut {sep c : Char} {l : List Char} (h : c ∈ (cut sep l).1) : c ∈ l := by
  induction l with
  | nil => exact h
  | cons d l ih =>
    rw [cut] at h
    split at h
    · exact absurd h (by simp)
    · rcases List.mem_cons.mp h with rfl | h
      · exact List.mem_cons_self
      · exact List.mem_cons_of_mem d (ih h)

/-- The first piece of a text is what stands before the first separator. -/
theorem splitOn_eq_cut_cons (sep : Char) (l : List Char) :
    ∃ rest, l.splitOn sep = (cut sep l).1 :: rest := by
  induction l with
  | nil => exact ⟨[], rfl⟩
  | cons c l ih =>
    obtain ⟨rest, hrest⟩ := ih
    rw [List.splitOn_cons_eq_if_modifyHead, cut]
    by_cases hc : c = sep
    · exact ⟨l.splitOn sep, by simp [hc]⟩
    · exact ⟨rest, by simp [hc, hrest]⟩

theorem splitOn_append {sep : Char} {p : List Char} (h : sep ∉ p) (l : List Char) :
    (p ++ l).splitOn sep = (l.splitOn sep).modifyHead (p ++ ·) := by
  induction p with
  | nil => cases hl : l.splitOn sep <;> simp [hl]
  | cons c p ih =>
    have hc : c ≠ sep := fun hc ↦ h (hc ▸ List.mem_cons_self)
    rw [List.cons_append, List.splitOn_cons_eq_if_modifyHead, if_neg (by simpa using hc),
      ih fun hp ↦ h (List.mem_cons_of_mem c hp), List.modifyHead_modifyHead]
    rfl

/-- The parameters on the two sides of an ampersand. -/
theorem queryItems_append (p l : List Char) :
    queryItems (p ++ '&' :: l) = do return (← queryItems p) ++ (← queryItems l) := by
  rw [queryItems, List.splitOn_append_cons_self, List.mapM_append]
  rfl

/-! ## Texts without percent signs -/

theorem valid_append {ok : Char → Bool} {p : List Char} (h : ∀ c ∈ p, ok c = true ∧ c ≠ '%')
    (l : List Char) : valid ok (p ++ l) = valid ok l := by
  induction p with
  | nil => rfl
  | cons c p ih =>
    obtain ⟨hok, hc⟩ := h c List.mem_cons_self
    rw [List.cons_append, valid.eq_def]
    simp only [if_neg hc, hok, Bool.true_and]
    exact ih fun d hd ↦ h d (List.mem_cons_of_mem c hd)

theorem percentDecode_append {p : List Char} (h : '%' ∉ p) (l : List Char) :
    percentDecode (p ++ l) = (percentDecode l).map (p.flatMap String.utf8EncodeChar ++ ·) := by
  induction p with
  | nil => simp
  | cons c p ih =>
    have hc : c ≠ '%' := fun hc ↦ h (hc ▸ List.mem_cons_self)
    rw [List.cons_append, percentDecode.eq_def]
    simp only [if_neg hc, ih fun hp ↦ h (List.mem_cons_of_mem c hp), Option.map_map,
      List.flatMap_cons]
    refine congrArg (Option.map · _) (funext fun bytes ↦ ?_)
    simp

/-! ## Percent triples -/

theorem valid_triple {ok : Char → Bool} {a b : Char} (ha : (hexDigit? a).isSome = true)
    (hb : (hexDigit? b).isSome = true) (l : List Char) :
    valid ok ('%' :: a :: b :: l) = valid ok l := by
  rw [valid.eq_def]
  simp only [if_true, ha, hb, Bool.true_and]

theorem percentDecode_triple {a b : Char} {m n : ℕ} (ha : hexDigit? a = some m)
    (hb : hexDigit? b = some n) (l : List Char) :
    percentDecode ('%' :: a :: b :: l)
      = (percentDecode l).map (UInt8.ofNat (m * 16 + n) :: ·) := by
  rw [percentDecode.eq_def]
  simp only [if_true, ha, hb, Option.pure_def, Option.bind_eq_bind, Option.bind_some,
    Option.map_eq_bind]
  rfl

/-! ## Decoding as UTF-8 -/

theorem toByteArray_injective : Function.Injective (List.toByteArray : List UInt8 → ByteArray) := by
  intro a b h
  have hd := congrArg ByteArray.data h
  rw [List.data_toByteArray, List.data_toByteArray] at hd
  simpa using hd

/-- Bytes decode to the text whose encoding they are. -/
theorem fromUTF8?_eq_some {b : ByteArray} {s : String} :
    String.fromUTF8? b = some s ↔ b = s.toByteArray := by
  rw [String.fromUTF8?]
  split
  · rename_i h
    rw [Option.some_inj, ← String.toByteArray_inj]
    rfl
  · rename_i h
    refine ⟨fun he ↦ absurd he (by simp), fun he ↦ absurd (he ▸ s.isValidUTF8) h⟩

/-- **A component decodes to `s`** exactly if it stands for the bytes of `s`. -/
theorem decodeComponent_eq_some {l : List Char} {s : String} :
    decodeComponent l = some s ↔
      percentDecode l = some (s.toList.flatMap String.utf8EncodeChar) := by
  have hs : s.toByteArray = (s.toList.flatMap String.utf8EncodeChar).toByteArray := by
    rw [← String.utf8Encode_toList, List.utf8Encode]
  rw [decodeComponent, Option.bind_eq_some_iff]
  refine ⟨fun ⟨bytes, hb, he⟩ ↦ ?_, fun h ↦ ⟨_, h, ?_⟩⟩
  · rw [fromUTF8?_eq_some, hs] at he
    rw [hb, toByteArray_injective he]
  · rw [fromUTF8?_eq_some, hs]

/-! ## Counting bytes -/

theorem length_utf8EncodeChar_pos (c : Char) : 1 ≤ (String.utf8EncodeChar c).length := by
  rw [String.length_utf8EncodeChar]
  exact c.utf8Size_pos

theorem length_le_length_encode (l : List Char) :
    l.length ≤ (l.flatMap String.utf8EncodeChar).length := by
  induction l with
  | nil => simp
  | cons c l ih =>
    have := length_utf8EncodeChar_pos c
    rw [List.flatMap_cons, List.length_append, List.length_cons]
    omega

theorem hexDigit?_percent : hexDigit? '%' = none := by decide

/-- **A percent triple is two characters longer than its byte.** -/
theorem length_percentDecode {l : List Char} {bytes : List UInt8}
    (h : percentDecode l = some bytes) (hl : ∀ c ∈ l, c.utf8Size = 1) :
    bytes.length + 2 * l.count '%' = l.length := by
  fun_induction percentDecode l generalizing bytes with
  | case1 =>
    obtain rfl := Option.some.inj h
    rfl
  | case2 a b l ih =>
    simp only [Option.pure_def, Option.bind_eq_bind, Option.bind_eq_some_iff,
      Option.some.injEq] at h
    obtain ⟨x, hx, y, hy, rest, hrest, rfl⟩ := h
    have ha : a ≠ '%' := fun ha ↦ by rw [ha, hexDigit?_percent] at hx; exact absurd hx (by simp)
    have hb : b ≠ '%' := fun hb ↦ by rw [hb, hexDigit?_percent] at hy; exact absurd hy (by simp)
    have := ih hrest fun c hc ↦ hl c (by simp [hc])
    simp only [List.length_cons, List.count_cons, beq_iff_eq, ha, hb, if_true, if_false]
    omega
  | case3 l hne => exact absurd h (by simp)
  | case4 c l hc ih =>
    obtain ⟨rest, hrest, rfl⟩ := Option.map_eq_some_iff.mp h
    have hlen : (String.utf8EncodeChar c).length = 1 := by
      rw [String.length_utf8EncodeChar, hl c List.mem_cons_self]
    have := ih hrest fun d hd ↦ hl d (List.mem_cons_of_mem c hd)
    rw [List.length_append, List.count_cons, List.length_cons, hlen, if_neg (by simpa using hc)]
    omega

theorem utf8Size_of_le {c d : Char} (h : c ≤ d) (hd : d.utf8Size = 1) : c.utf8Size = 1 := by
  rw [Char.utf8Size_eq_one_iff] at hd ⊢
  exact UInt32.le_trans h hd

theorem utf8Size_of_hexDigit? {c : Char} (h : (hexDigit? c).isSome = true) : c.utf8Size = 1 := by
  rw [hexDigit?] at h
  split at h
  · rename_i hc; exact utf8Size_of_le hc.2 (by decide)
  · split at h
    · rename_i hc; exact utf8Size_of_le hc.2 (by decide)
    · split at h
      · rename_i hc; exact utf8Size_of_le hc.2 (by decide)
      · exact absurd h (by simp)

/-- Where the allowed characters take one byte, all characters of a valid component do. -/
theorem utf8Size_of_valid {ok : Char → Bool} (hok : ∀ c, ok c = true → c.utf8Size = 1)
    {l : List Char} (h : valid ok l = true) : ∀ c ∈ l, c.utf8Size = 1 := by
  fun_induction valid ok l with
  | case1 => simp
  | case2 a b l ih =>
    simp only [Bool.and_eq_true] at h
    intro c hc
    rcases List.mem_cons.mp hc with rfl | hc
    · decide
    rcases List.mem_cons.mp hc with rfl | hc
    · exact utf8Size_of_hexDigit? h.1.1
    rcases List.mem_cons.mp hc with rfl | hc
    · exact utf8Size_of_hexDigit? h.1.2
    · exact ih h.2 c hc
  | case3 l hne => exact absurd h (by simp)
  | case4 c l hc ih =>
    rw [Bool.and_eq_true] at h
    intro d hd
    rcases List.mem_cons.mp hd with rfl | hd
    · exact hok d h.1
    · exact ih h.2 d hd

theorem utf8Size_of_contains {l : List Char} {c : Char}
    (hl : (l.all fun d ↦ d.utf8Size = 1) = true) (h : l.contains c = true) : c.utf8Size = 1 :=
  of_decide_eq_true (List.all_eq_true.mp hl c (List.contains_iff_mem.mp h))

/-- The characters of a query take one byte. -/
theorem utf8Size_of_isQueryChar {c : Char} (h : isQueryChar c = true) : c.utf8Size = 1 := by
  simp only [isQueryChar, isPathChar, isUnreserved, isSubDelim, Bool.or_eq_true] at h
  rcases h with (((h | h) | h) | h) | h
  · have hz : c ≤ 'z' := by
      change (decide ('A'.val ≤ c.val ∧ c.val ≤ 'Z'.val) ||
        (decide ('a'.val ≤ c.val) && decide (c.val ≤ 'z'.val)) ||
        (decide ('0'.val ≤ c.val) && decide (c.val ≤ '9'.val))) = true at h
      simp only [Bool.or_eq_true, Bool.and_eq_true, decide_eq_true_eq] at h
      rw [Char.le_def, UInt32.le_iff_toNat_le]
      rcases h with (⟨-, h⟩ | ⟨-, h⟩) | ⟨-, h⟩ <;> rw [UInt32.le_iff_toNat_le] at h
      · exact h.trans (by decide)
      · exact h
      · exact h.trans (by decide)
    exact utf8Size_of_le hz (by decide)
  all_goals exact utf8Size_of_contains (by decide) h

end Url

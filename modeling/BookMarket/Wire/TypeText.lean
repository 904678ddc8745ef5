import BookMarket.Lib.Split
import BookMarket.Wire.AddressText

/-!
# Types as texts

The pages name the types a call is made at by texts, `0x2::sui::SUI` for instance.  The
SDK parses them into tags before the call is encoded, and prints the tags of calls that
were decoded.

* `parseFromStr`, `tagToString` — the two functions of `TypeTagSerializer`, with the
  regular expressions and the splitting of type arguments they rest on.
* `Spells` — the texts a type can be written as: the address in any form, and blanks
  around type arguments.
* `Canonical` — the tags of such texts.
* `typeTexts` — **every spelling of a type is parsed as the type, and what is printed for
  a type is one of its spellings.**
-/

namespace BookMarket.Wire

/-- `TypeTag` and `StructTag`. -/
inductive TypeTag
  | bool
  | u8
  | u16
  | u32
  | u64
  | u128
  | u256
  | address
  | signer
  | vector (type : TypeTag)
  | struct (address moduleName name : JsString) (typeParams : List TypeTag)

/-! ## Parsing -/

/-- The types that are single words, in the order they are looked for. -/
def primitives : List (JsString × TypeTag) :=
  [(js "address", .address), (js "bool", .bool), (js "u8", .u8), (js "u16", .u16),
    (js "u32", .u32), (js "u64", .u64), (js "u128", .u128), (js "u256", .u256),
    (js "signer", .signer)]

def primitive (str : JsString) : Option TypeTag :=
  (primitives.find? fun p => p.1 = str).map Prod.snd

theorem mem_of_primitive {str : JsString} {tag : TypeTag} (h : primitive str = some tag) :
    (str, tag) ∈ primitives := by
  obtain ⟨p, hp, rfl⟩ := Option.map_eq_some_iff.1 h
  have hstr : p.1 = str := by simpa using List.find?_some hp
  rw [← hstr]
  exact List.mem_of_find?_eq_some hp

/-- `VECTOR_REGEX`, that is `^vector<(.+)>$`, and its group. -/
def vectorMatch (str : JsString) : Option JsString :=
  let inner := (str.drop 7).dropLast
  if js "vector<" <+: str ∧ (str.drop 7).getLast? = some (unit '>') ∧ inner ≠ [] ∧
      ∀ u ∈ inner, isLineTerminator u = false then
    some inner
  else
    none

/-- The groups of `STRUCT_REGEX`. -/
structure StructMatch where
  address : JsString
  moduleName : JsString
  name : JsString
  typeArgs : Option JsString

/-- `([^:]+)::`, and what follows it.  There is no choice: what is not a colon goes up to
the next colon. -/
def pathMatch (str : JsString) : Option (JsString × JsString) :=
  let part := str.takeWhile fun u => u != unit ':'
  let rest := str.dropWhile fun u => u != unit ':'
  if part ≠ [] ∧ js "::" <+: rest then some (part, rest.drop 2) else none

/-- `(<(.+)>)?`, with the bracket that closes it being the last one of the line. -/
def argsMatch (str : JsString) : Option JsString :=
  if str.head? = some (unit '<') then
    let line := str.tail.takeWhile fun u => !isLineTerminator u
    let inner := (line.rdropWhile fun u => u != unit '>').dropLast
    if inner ≠ [] then some inner else none
  else
    none

/-- `STRUCT_REGEX`, that is `^([^:]+)::([^:]+)::([^<]+)(<(.+)>)?`.  It need not match the
whole text. -/
def structMatch (str : JsString) : Option StructMatch := do
  let (address, rest) ← pathMatch str
  let (moduleName, rest) ← pathMatch rest
  let name := rest.takeWhile fun u => u != unit '<'
  if name ≠ [] then
    some ⟨address, moduleName, name, argsMatch (rest.dropWhile fun u => u != unit '<')⟩
  else
    none

/-- `trim`. -/
def trim (s : JsString) : JsString := (s.dropWhile isSpace).rdropWhile isSpace

/-- What a unit does to `nestedAngleBrackets`. -/
def angle (u : UInt16) : ℤ :=
  if u = unit '<' then 1 else if u = unit '>' then -1 else 0

def isComma (u : UInt16) : Bool := u = unit ','

/-- `splitGenericParameters`. -/
def splitGenericParameters (str : JsString) : List JsString :=
  (Split.words angle isComma 0 [] str).map trim

theorem length_trim_le (s : JsString) : (trim s).length ≤ s.length :=
  (List.rdropWhile_prefix _ _).length_le.trans (List.dropWhile_suffix _).length_le

theorem length_le_of_mem_splitGenericParameters {str tok : JsString}
    (h : tok ∈ splitGenericParameters str) : tok.length ≤ str.length := by
  obtain ⟨w, hw, rfl⟩ := List.mem_map.1 h
  exact (length_trim_le w).trans (by simpa using Split.length_le_of_mem_words hw)

theorem length_lt_of_vectorMatch {str inner : JsString} (h : vectorMatch str = some inner) :
    inner.length < str.length := by
  simp only [vectorMatch] at h
  split at h
  · next hif =>
    cases h
    have : 7 ≤ str.length := hif.1.length_le
    simp only [List.length_dropLast, List.length_drop]
    omega
  · cases h

theorem length_lt_of_argsMatch {str inner : JsString} (h : argsMatch str = some inner) :
    inner.length < str.length := by
  simp only [argsMatch] at h
  split at h
  · next hhead =>
    split at h
    · cases h
      have hpos : 0 < str.length := by
        cases str with
        | nil => cases hhead
        | cons u s => simp
      have h1 := (List.rdropWhile_prefix (fun u => u != unit '>')
        (str.tail.takeWhile fun u => !isLineTerminator u)).length_le
      have h2 := (List.takeWhile_prefix (fun u => !isLineTerminator u) (l := str.tail)).length_le
      have h3 : str.tail.length = str.length - 1 := List.length_tail
      rw [List.length_dropLast]
      omega
    · cases h
  · cases h

theorem length_le_of_pathMatch {str part rest : JsString} (h : pathMatch str = some (part, rest)) :
    rest.length ≤ str.length := by
  simp only [pathMatch] at h
  split at h
  · cases h
    rw [List.length_drop]
    have := (List.dropWhile_suffix (l := str) fun u => u != unit ':').length_le
    omega
  · cases h

theorem length_lt_of_structMatch {str args : JsString} {m : StructMatch}
    (h : structMatch str = some m) (hargs : m.typeArgs = some args) : args.length < str.length := by
  simp only [structMatch, bind, Option.bind_eq_some_iff, Prod.exists] at h
  obtain ⟨address, rest, h1, moduleName, rest', h2, h3⟩ := h
  split at h3
  · cases h3
    calc args.length < (rest'.dropWhile fun u => u != unit '<').length :=
          length_lt_of_argsMatch hargs
      _ ≤ rest'.length := (List.dropWhile_suffix _).length_le
      _ ≤ rest.length := length_le_of_pathMatch h2
      _ ≤ str.length := length_le_of_pathMatch h1
  · cases h3

/-- The error of `parseFromStr`, with the part that was not understood. -/
def unexpectedToken (str : JsString) : String :=
  "Encountered unexpected token when parsing type args for " ++ String.ofList (codePoints str)

set_option linter.unusedVariables false in
/-- `TypeTagSerializer.parseFromStr`, and with it `parseStructTypeArgs`. -/
def parseFromStr (lower : LowerCase) (normalizeAddress : Bool) (str : JsString) :
    Except String TypeTag :=
  match primitive str with
  | some tag => .ok tag
  | none =>
    match hv : vectorMatch str with
    | some inner => do
      let type ← parseFromStr lower normalizeAddress inner
      return .vector type
    | none =>
      match hs : structMatch str with
      | some m =>
        let address := if normalizeAddress then normalizeSuiAddress lower m.address else m.address
        match ha : m.typeArgs with
        | none => .ok (.struct address m.moduleName m.name [])
        | some args => do
          let typeParams ← (splitGenericParameters args).attach.mapM fun tok =>
            parseFromStr lower normalizeAddress tok.1
          return .struct address m.moduleName m.name typeParams
      | none => .error (unexpectedToken str)
termination_by str.length
decreasing_by
  · exact length_lt_of_vectorMatch hv
  · exact (length_le_of_mem_splitGenericParameters tok.2).trans_lt (length_lt_of_structMatch hs ha)

/-! ## Printing -/

mutual

/-- `TypeTagSerializer.tagToString`. -/
def tagToString : TypeTag → JsString
  | .bool => js "bool"
  | .u8 => js "u8"
  | .u16 => js "u16"
  | .u32 => js "u32"
  | .u64 => js "u64"
  | .u128 => js "u128"
  | .u256 => js "u256"
  | .address => js "address"
  | .signer => js "signer"
  | .vector type => js "vector<" ++ tagToString type ++ js ">"
  | .struct address moduleName name params =>
    let typeParams := Split.join (js ", ") (tagsToString params)
    address ++ js "::" ++ moduleName ++ js "::" ++ name ++
      if typeParams = [] then [] else js "<" ++ typeParams ++ js ">"

/-- The `map` of it. -/
def tagsToString : List TypeTag → List JsString
  | [] => []
  | tag :: tags => tagToString tag :: tagsToString tags

end

theorem tagsToString_eq (tags : List TypeTag) : tagsToString tags = tags.map tagToString := by
  induction tags with
  | nil => rfl
  | cons tag tags ih => rw [tagsToString, ih, List.map_cons]

/-! ## What the parser does with a match -/

section Equations

variable {lower : LowerCase} {normalizeAddress : Bool} {str inner args : JsString} {tag : TypeTag}

theorem parseFromStr_primitive (h : primitive str = some tag) :
    parseFromStr lower normalizeAddress str = .ok tag := by
  rw [parseFromStr, h]

theorem parseFromStr_vector (h : primitive str = none) (hv : vectorMatch str = some inner)
    (hinner : parseFromStr lower normalizeAddress inner = .ok tag) :
    parseFromStr lower normalizeAddress str = .ok (.vector tag) := by
  rw [parseFromStr, h]
  dsimp only
  split
  · next inner' hv' =>
    cases hv.symm.trans hv'
    rw [hinner]
    rfl
  · next hv' => cases hv.symm.trans hv'

/-- The address of a struct. -/
def readAddress (lower : LowerCase) (normalizeAddress : Bool) (address : JsString) : JsString :=
  if normalizeAddress then normalizeSuiAddress lower address else address

theorem parseFromStr_struct {address moduleName name : JsString} (h : primitive str = none)
    (hv : vectorMatch str = none) (hs : structMatch str = some ⟨address, moduleName, name, none⟩) :
    parseFromStr lower normalizeAddress str =
      .ok (.struct (readAddress lower normalizeAddress address) moduleName name []) := by
  rw [parseFromStr, h]
  dsimp only
  split
  · next hv' => cases hv.symm.trans hv'
  · split
    · next m hs' =>
      cases hs.symm.trans hs'
      rfl
    · next hs' => cases hs.symm.trans hs'

theorem parseFromStr_generic {address moduleName name : JsString} {tags : List TypeTag}
    (h : primitive str = none) (hv : vectorMatch str = none)
    (hs : structMatch str = some ⟨address, moduleName, name, some args⟩)
    (hargs : (splitGenericParameters args).mapM (parseFromStr lower normalizeAddress) = .ok tags) :
    parseFromStr lower normalizeAddress str =
      .ok (.struct (readAddress lower normalizeAddress address) moduleName name tags) := by
  rw [parseFromStr, h]
  dsimp only
  split
  · next hv' => cases hv.symm.trans hv'
  · split
    · next m hs' =>
      cases hs.symm.trans hs'
      have hattach : (splitGenericParameters args).attach.mapM
          (fun tok => parseFromStr lower normalizeAddress tok.1) = .ok tags := by
        rw [List.mapM_subtype (g := parseFromStr lower normalizeAddress) fun _ _ => rfl,
          List.unattach_attach, hargs]
      dsimp only
      rw [hattach]
      rfl
    · next hs' => cases hs.symm.trans hs'

end Equations

/-! ## Spellings -/

/-- A name: not empty, and without anything that has a meaning in a type. -/
def Plain (s : JsString) : Prop :=
  s ≠ [] ∧ ∀ u ∈ s, u ≠ unit ':' ∧ u ≠ unit '<' ∧ u ≠ unit '>' ∧ u ≠ unit ',' ∧ isSpace u = false

/-- Space on one line. -/
def Blank (s : JsString) : Prop := ∀ u ∈ s, isSpace u = true ∧ isLineTerminator u = false

/-- The path of a struct. -/
def path (address moduleName name : JsString) : JsString :=
  address ++ js "::" ++ moduleName ++ js "::" ++ name

def bracketed (s : JsString) : JsString := js "<" ++ s ++ js ">"

/-- A type argument: the type, its text, and what is around it. -/
structure Arg where
  before : JsString
  text : JsString
  after : JsString
  tag : TypeTag

def Arg.spelling (x : Arg) : JsString := x.before ++ x.text ++ x.after

/-- The texts a type can be written as.  The tag has the address as it is read. -/
inductive Spells (lower : LowerCase) (normalizeAddress : Bool) : JsString → TypeTag → Prop
  | primitive {str tag} (h : primitive str = some tag) : Spells lower normalizeAddress str tag
  | vector {str tag} (h : Spells lower normalizeAddress str tag) :
      Spells lower normalizeAddress (js "vector<" ++ str ++ js ">") (.vector tag)
  | struct {address moduleName name} (haddress : Plain address) (hascii : ∀ u ∈ address, u < 0x80)
      (hmodule : Plain moduleName) (hname : Plain name) :
      Spells lower normalizeAddress (path address moduleName name)
        (.struct (readAddress lower normalizeAddress address) moduleName name [])
  | generic {address moduleName name} (haddress : Plain address)
      (hascii : ∀ u ∈ address, u < 0x80) (hmodule : Plain moduleName) (hname : Plain name)
      (args : List Arg) (hne : args ≠ [])
      (hargs : ∀ x ∈ args, Spells lower normalizeAddress x.text x.tag)
      (hblank : ∀ x ∈ args, Blank x.before ∧ Blank x.after) :
      Spells lower normalizeAddress
        (path address moduleName name ++
          bracketed (Split.join (js ",") (args.map Arg.spelling)))
        (.struct (readAddress lower normalizeAddress address) moduleName name (args.map Arg.tag))

/-- The tags of spellings: every part is a name, and the addresses are as they are read. -/
inductive Canonical (lower : LowerCase) (normalizeAddress : Bool) : TypeTag → Prop
  | primitive {str tag} (h : primitive str = some tag) : Canonical lower normalizeAddress tag
  | vector {tag} (h : Canonical lower normalizeAddress tag) :
      Canonical lower normalizeAddress (.vector tag)
  | struct {address moduleName name params} (haddress : Plain address)
      (hascii : ∀ u ∈ address, u < 0x80) (hmodule : Plain moduleName) (hname : Plain name)
      (hread : readAddress lower normalizeAddress address = address)
      (hparams : ∀ x ∈ params, Canonical lower normalizeAddress x) :
      Canonical lower normalizeAddress (.struct address moduleName name params)

/-- What the splitting has to know of a text: it is closed, on one line, and neither
begins nor ends with space. -/
structure Word (s : JsString) : Prop where
  closed : Split.Closed angle isComma s
  oneLine : OneLine s
  head : ∃ u t, s = u :: t ∧ isSpace u = false
  last : ∃ t u, s = t ++ [u] ∧ isSpace u = false

theorem isSpace_of_isLineTerminator {u : UInt16} (h : isSpace u = false) :
    isLineTerminator u = false := by
  cases hu : isLineTerminator u with
  | false => rfl
  | true => simp [isSpace, hu] at h

section Words

variable {s t : JsString}

theorem Plain.closed (h : Plain s) : Split.Closed angle isComma s := by
  refine Split.closed_of_plain fun u hu => ?_
  obtain ⟨-, hl, hr, hc, -⟩ := h.2 u hu
  simp [angle, isComma, hl, hr, hc]

theorem Plain.oneLine (h : Plain s) : OneLine s :=
  fun u hu => isSpace_of_isLineTerminator (h.2 u hu).2.2.2.2

theorem Blank.closed (h : Blank s) : Split.Closed angle isComma s := by
  refine Split.closed_of_plain fun u hu => ?_
  have hne (v : UInt16) (hv : isSpace v = false) : u ≠ v := by
    rintro rfl
    exact Bool.false_ne_true (hv.symm.trans (h _ hu).1)
  simp [angle, isComma, hne (unit '<') (by decide), hne (unit '>') (by decide),
    hne (unit ',') (by decide)]

theorem Blank.oneLine (h : Blank s) : OneLine s :=
  fun u hu => (h u hu).2

/-- Blanks around a word are what `trim` removes. -/
theorem Word.trim {before after : JsString} (hs : Word s) (hb : Blank before) (ha : Blank after) :
    trim (before ++ s ++ after) = s := by
  obtain ⟨u, t, rfl, hu⟩ := hs.head
  obtain ⟨t', u', hlast, hu'⟩ := hs.last
  have hdrop : (before ++ (u :: t) ++ after).dropWhile isSpace = (u :: t) ++ after := by
    rw [List.append_assoc, List.dropWhile_append_of_pos fun v hv => (hb v hv).1]
    simp [hu]
  rw [Wire.trim, hdrop, hlast, List.rdropWhile, List.reverse_append,
    List.dropWhile_append_of_pos fun v hv => (ha v (List.mem_reverse.1 hv)).1]
  simp [hu']

theorem Plain.word (h : Plain s) : Word s where
  closed := h.closed
  oneLine := h.oneLine
  head := by
    obtain ⟨u, t, rfl⟩ := List.exists_cons_of_ne_nil h.1
    exact ⟨u, t, rfl, (h.2 u (by simp)).2.2.2.2⟩
  last := by
    obtain ⟨t, u, rfl⟩ := (List.eq_nil_or_concat' s).resolve_left h.1
    exact ⟨t, u, rfl, (h.2 u (by simp)).2.2.2.2⟩

/-- Words with something between them. -/
theorem Word.glue {mid : JsString} (hs : Word s) (hclosed : Split.Closed angle isComma mid)
    (hline : OneLine mid) (ht : Word t) : Word (s ++ mid ++ t) where
  closed := (hs.closed.append hclosed).append ht.closed
  oneLine := (hs.oneLine.append hline).append ht.oneLine
  head := by
    obtain ⟨u, s', rfl, hu⟩ := hs.head
    exact ⟨u, s' ++ mid ++ t, by simp, hu⟩
  last := by
    obtain ⟨t', u, rfl, hu⟩ := ht.last
    exact ⟨s ++ mid ++ t', u, by simp, hu⟩

theorem closed_colons : Split.Closed angle isComma (js "::") :=
  Split.closed_of_plain (by decide)

theorem word_path {address moduleName name : JsString} (haddress : Plain address)
    (hmodule : Plain moduleName) (hname : Plain name) : Word (path address moduleName name) := by
  have hcolons : OneLine (js "::") := by
    unfold OneLine
    decide
  have hrest := hmodule.word.glue closed_colons hcolons hname.word
  simpa only [path, List.append_assoc] using haddress.word.glue closed_colons hcolons hrest

/-- Brackets after a word. -/
theorem Word.bracket (hs : Word s) (ht : Split.Inner angle isComma t) (hline : OneLine t) :
    Word (s ++ bracketed t) where
  closed := hs.closed.append (ht.bracket (o := unit '<') (c := unit '>') rfl rfl rfl)
  oneLine := by
    have hopen : OneLine (js "<") := by
      unfold OneLine
      decide
    have hclose : OneLine (js ">") := by
      unfold OneLine
      decide
    exact hs.oneLine.append ((hopen.append hline).append hclose)
  head := by
    obtain ⟨u, s', rfl, hu⟩ := hs.head
    exact ⟨u, s' ++ bracketed t, rfl, hu⟩
  last := ⟨s ++ (js "<" ++ t), unit '>', by rw [List.append_assoc]; rfl, by decide⟩

theorem plain_of_primitive {tag : TypeTag} (h : primitive s = some tag) : Plain s := by
  have hall : ∀ p ∈ primitives, p.1 ≠ [] ∧ ∀ u ∈ p.1, u ≠ unit ':' ∧ u ≠ unit '<' ∧
      u ≠ unit '>' ∧ u ≠ unit ',' ∧ isSpace u = false := by decide
  exact hall _ (mem_of_primitive h)

end Words

theorem closed_spelling {x : Arg} (h : Word x.text) (hblank : Blank x.before ∧ Blank x.after) :
    Split.Closed angle isComma x.spelling :=
  (hblank.1.closed.append h.closed).append hblank.2.closed

theorem oneLine_args {args : List Arg} (hword : ∀ x ∈ args, Word x.text)
    (hblank : ∀ x ∈ args, Blank x.before ∧ Blank x.after) :
    OneLine (Split.join (js ",") (args.map Arg.spelling)) := by
  have hcomma : OneLine (js ",") := by
    unfold OneLine
    decide
  have hspelling : ∀ x ∈ args, OneLine x.spelling := fun x hx =>
    ((hblank x hx).1.oneLine.append (hword x hx).oneLine).append (hblank x hx).2.oneLine
  cases args with
  | nil => simp [Split.join, OneLine]
  | cons x args =>
    refine (hspelling x (by simp)).append fun u hu => ?_
    obtain ⟨w, hw, hu⟩ := List.mem_flatMap.1 hu
    obtain ⟨y, hy, rfl⟩ := List.mem_map.1 hw
    exact hcomma.append (hspelling y (by simp [hy])) u hu

variable {lower : LowerCase} {normalizeAddress : Bool} {str inner : JsString} {tag : TypeTag}

/-- **Every spelling is a word.** -/
theorem Spells.word (h : Spells lower normalizeAddress str tag) : Word str := by
  induction h with
  | primitive h => exact (plain_of_primitive h).word
  | vector _ ih =>
    have hvector : Plain (js "vector") := by
      unfold Plain
      decide
    exact hvector.word.bracket ih.closed.inner ih.oneLine
  | struct haddress _ hmodule hname => exact word_path haddress hmodule hname
  | generic haddress _ hmodule hname args _ _ hblank ih =>
    refine (word_path haddress hmodule hname).bracket (Split.inner_join ?_ fun w hw => ?_)
      (oneLine_args ih hblank)
    · exact Split.inner_of_flat (by decide)
    · obtain ⟨x, hx, rfl⟩ := List.mem_map.1 hw
      exact (closed_spelling (ih x hx) (hblank x hx)).inner

/-! ## Matching -/

theorem primitive_eq_none (h : unit ':' ∈ str ∨ unit '<' ∈ str) : primitive str = none := by
  cases hp : primitive str with
  | none => rfl
  | some tag =>
    obtain ⟨-, hplain⟩ := plain_of_primitive hp
    rcases h with h | h
    · exact absurd rfl (hplain _ h).1
    · exact absurd rfl (hplain _ h).2.1

theorem vectorMatch_vector (hne : inner ≠ []) (hline : OneLine inner) :
    vectorMatch (js "vector<" ++ inner ++ js ">") = some inner := by
  have hdrop : (js "vector<" ++ inner ++ js ">").drop 7 = inner ++ js ">" := by
    rw [List.append_assoc]
    exact List.drop_left' rfl
  have hlast : (inner ++ js ">").dropLast = inner := List.dropLast_concat
  simp only [vectorMatch, hdrop, hlast]
  refine if_pos ⟨?_, List.getLast?_concat, hne, hline⟩
  rw [List.append_assoc]
  exact List.prefix_append _ _

/-- A path is no vector: a colon comes before the bracket. -/
theorem vectorMatch_path {address moduleName name rest : JsString} (h : Plain address) :
    vectorMatch (path address moduleName name ++ rest) = none := by
  refine if_neg fun hif => ?_
  obtain ⟨r, hr⟩ := hif.1
  have htext : path address moduleName name ++ rest =
      address ++ (js "::" ++ (moduleName ++ js "::" ++ name ++ rest)) := by
    simp [path]
  rw [htext] at hr
  rcases List.append_eq_append_iff.1 hr with ⟨as, rfl, -⟩ | ⟨bs, hbs, hrest⟩
  · exact (h.2 (unit '<') (List.mem_append_left _ (by decide))).2.1 rfl
  · cases bs with
    | nil =>
      rw [List.append_nil] at hbs
      subst hbs
      exact (h.2 (unit '<') (by decide)).2.1 rfl
    | cons b bs =>
      have hb : unit ':' = b := (List.cons_eq_cons.1 hrest).1
      have hmem : unit ':' ∈ js "vector<" := by
        rw [hbs, hb]
        simp
      exact absurd hmem (by decide)

theorem primitive_path {address moduleName name rest : JsString} :
    primitive (path address moduleName name ++ rest) = none := by
  refine primitive_eq_none (.inl (List.mem_append_left _ ?_))
  unfold path
  simp [js]

theorem pathMatch_path {part rest : JsString} (h : Plain part) :
    pathMatch (part ++ js "::" ++ rest) = some (part, rest) := by
  have hall : ∀ u ∈ part, (u != unit ':') = true := fun u hu => by simpa using (h.2 u hu).1
  have htake : (part ++ js "::" ++ rest).takeWhile (fun u => u != unit ':') = part := by
    rw [List.append_assoc, List.takeWhile_append_of_pos hall]
    simp [js]
  have hdrop : (part ++ js "::" ++ rest).dropWhile (fun u => u != unit ':') = js "::" ++ rest := by
    rw [List.append_assoc, List.dropWhile_append_of_pos hall]
    simp [js]
  simp only [pathMatch, htake, hdrop]
  exact if_pos ⟨h.1, List.prefix_append _ _⟩

/-- A path, and what may come after it. -/
theorem structMatch_path {address moduleName name rest : JsString} (haddress : Plain address)
    (hmodule : Plain moduleName) (hname : Plain name)
    (hrest : rest = [] ∨ rest.head? = some (unit '<')) :
    structMatch (path address moduleName name ++ rest) =
      some ⟨address, moduleName, name, argsMatch rest⟩ := by
  have hall : ∀ u ∈ name, (u != unit '<') = true := fun u hu => by simpa using (hname.2 u hu).2.1
  have hstop : rest.takeWhile (fun u => u != unit '<') = [] ∧
      rest.dropWhile (fun u => u != unit '<') = rest := by
    rcases hrest with rfl | hrest
    · exact ⟨rfl, rfl⟩
    · obtain ⟨t, rfl⟩ := List.head?_eq_some_iff.1 hrest
      simp
  have htext : path address moduleName name ++ rest =
      address ++ js "::" ++ (moduleName ++ js "::" ++ (name ++ rest)) := by
    simp [path]
  rw [structMatch, htext, pathMatch_path haddress]
  simp only [bind, Option.bind_some, pathMatch_path hmodule, List.takeWhile_append_of_pos hall,
    List.dropWhile_append_of_pos hall, hstop, List.append_nil]
  exact if_pos hname.1

theorem argsMatch_bracket (hne : inner ≠ []) (hline : OneLine inner) :
    argsMatch (bracketed inner) = some inner := by
  have hclose : OneLine (js ">") := by
    unfold OneLine
    decide
  have htake : (inner ++ js ">").takeWhile (fun u => !isLineTerminator u) = inner ++ js ">" :=
    List.takeWhile_eq_self_iff.2 fun u hu => by simpa using hline.append hclose u hu
  have hlast : (inner ++ js ">").rdropWhile (fun u => u != unit '>') = inner ++ js ">" :=
    List.rdropWhile_concat_neg _ _ (unit '>') (by simp)
  have hdrop : (inner ++ js ">").dropLast = inner := List.dropLast_concat
  have hhead : bracketed inner = unit '<' :: (inner ++ js ">") := rfl
  simp only [argsMatch, hhead, List.head?_cons, if_true, List.tail_cons, htake, hlast, hdrop]
  exact if_pos hne

/-! ## Spellings are parsed -/

/-- The arguments of a spelling are split where they were joined. -/
theorem splitGenericParameters_join {args : List Arg} (hne : args ≠ [])
    (hword : ∀ x ∈ args, Word x.text) (hblank : ∀ x ∈ args, Blank x.before ∧ Blank x.after) :
    splitGenericParameters (Split.join (js ",") (args.map Arg.spelling)) = args.map Arg.text := by
  obtain ⟨x, xs, rfl⟩ := List.exists_cons_of_ne_nil hne
  have hclosed : ∀ w ∈ x.spelling :: xs.map Arg.spelling, Split.Closed angle isComma w := by
    intro w hw
    rw [← List.map_cons] at hw
    obtain ⟨y, hy, rfl⟩ := List.mem_map.1 hw
    exact closed_spelling (hword y hy) (hblank y hy)
  have hwords := Split.words_join (c := unit ',') rfl rfl hclosed
  rw [splitGenericParameters, List.map_cons]
  refine (congrArg (List.map trim) hwords).trans ?_
  rw [← List.map_cons, List.map_map]
  refine List.map_congr_left fun y hy => ?_
  exact (hword y hy).trim (hblank y hy).1 (hblank y hy).2

theorem join_ne_nil {args : List Arg} (hne : args ≠ []) (hword : ∀ x ∈ args, Word x.text) :
    Split.join (js ",") (args.map Arg.spelling) ≠ [] := by
  obtain ⟨x, xs, rfl⟩ := List.exists_cons_of_ne_nil hne
  obtain ⟨u, t, htext, -⟩ := (hword x (by simp)).head
  simp [Split.join, Arg.spelling, htext]

theorem mapM_ok {α β γ : Type} {f : β → Except String γ} {g : α → β} {k : α → γ} {xs : List α}
    (h : ∀ x ∈ xs, f (g x) = .ok (k x)) : (xs.map g).mapM f = .ok (xs.map k) := by
  induction xs with
  | nil => rfl
  | cons x xs ih =>
    rw [List.map_cons, List.mapM_cons, h x (by simp), ih fun y hy => h y (by simp [hy])]
    rfl

/-- **Every spelling of a type is parsed as the type.** -/
theorem Spells.parseFromStr (h : Spells lower normalizeAddress str tag) :
    parseFromStr lower normalizeAddress str = .ok tag := by
  induction h with
  | primitive h => exact parseFromStr_primitive h
  | @vector str tag h ih =>
    obtain ⟨u, t, rfl, -⟩ := h.word.head
    have hmatch := vectorMatch_vector (List.cons_ne_nil u t) h.word.oneLine
    refine parseFromStr_vector (primitive_eq_none (.inr ?_)) hmatch ih
    exact List.mem_append_left _ (List.mem_append_left _ (by decide))
  | struct haddress _ hmodule hname =>
    have hmatch := structMatch_path haddress hmodule hname (.inl rfl)
    rw [← List.append_nil (path _ _ _)]
    exact parseFromStr_struct primitive_path (vectorMatch_path haddress) hmatch
  | generic haddress _ hmodule hname args hne hargs hblank ih =>
    have hword : ∀ x ∈ args, Word x.text := fun x hx => (hargs x hx).word
    have hmatch := structMatch_path haddress hmodule hname
      (.inr (rfl : (bracketed (Split.join (js ",") (args.map Arg.spelling))).head? = _))
    rw [argsMatch_bracket (join_ne_nil hne hword) (oneLine_args hword hblank)] at hmatch
    refine parseFromStr_generic primitive_path (vectorMatch_path haddress) hmatch ?_
    rw [splitGenericParameters_join hne hword hblank]
    exact mapM_ok ih

/-! ## Tags that are printed as one of their spellings -/

theorem asciiLower_cases (u : UInt16) :
    asciiLower u = u ∨ ∃ n : Fin 26, asciiLower u = UInt16.ofNat (0x61 + n) := by
  by_cases h : 0x41 ≤ u ∧ u ≤ 0x5A
  · obtain ⟨h1, h2⟩ := h
    have hlow : asciiLower u = u + 0x20 := if_pos ⟨h1, h2⟩
    rw [UInt16.le_iff_toNat_le] at h1 h2
    simp only [UInt16.reduceToNat] at h1 h2
    refine .inr ⟨⟨u.toNat - 0x41, by omega⟩, ?_⟩
    rw [hlow]
    apply UInt16.toNat_inj.1
    rw [UInt16.toNat_add, UInt16.toNat_ofNat_of_lt' (by rw [UInt16.size]; omega)]
    simp only [UInt16.reduceToNat]
    omega
  · exact .inl (if_neg h)

/-- Lower case keeps a text a name. -/
theorem asciiLower_plain {u : UInt16} (hascii : u < 0x80)
    (h : u ≠ unit ':' ∧ u ≠ unit '<' ∧ u ≠ unit '>' ∧ u ≠ unit ',' ∧ isSpace u = false) :
    asciiLower u < 0x80 ∧ asciiLower (asciiLower u) = asciiLower u ∧
      asciiLower u ≠ unit ':' ∧ asciiLower u ≠ unit '<' ∧ asciiLower u ≠ unit '>' ∧
      asciiLower u ≠ unit ',' ∧ isSpace (asciiLower u) = false := by
  rcases asciiLower_cases u with hu | ⟨n, hn⟩
  · rw [hu, hu]
    exact ⟨hascii, rfl, h⟩
  · have hall : ∀ n : Fin 26, let v := UInt16.ofNat (0x61 + n)
        v < 0x80 ∧ asciiLower v = v ∧ v ≠ unit ':' ∧ v ≠ unit '<' ∧ v ≠ unit '>' ∧
          v ≠ unit ',' ∧ isSpace v = false := by decide
    rw [hn]
    exact hall n

theorem plain_normalizeSuiAddress (lower : LowerCase) {address : JsString} (h : Plain address)
    (hascii : ∀ u ∈ address, u < 0x80) :
    Plain (normalizeSuiAddress lower address) ∧
      (∀ u ∈ normalizeSuiAddress lower address, u < 0x80 ∧ asciiLower u = u) := by
  have hlow : lower.toLowerCase address = address.map asciiLower := lower.ascii _ hascii
  have hmem : ∀ u ∈ normalizeSuiAddress lower address, u < 0x80 ∧ asciiLower u = u ∧
      u ≠ unit ':' ∧ u ≠ unit '<' ∧ u ≠ unit '>' ∧ u ≠ unit ',' ∧ isSpace u = false := by
    intro u hu
    rw [normalizeSuiAddress, hlow] at hu
    rcases List.mem_append.1 hu with hu | hu
    · have hall : ∀ u ∈ js "0x", u < 0x80 ∧ asciiLower u = u ∧
          u ≠ unit ':' ∧ u ≠ unit '<' ∧ u ≠ unit '>' ∧ u ≠ unit ',' ∧ isSpace u = false := by
        decide
      exact hall u hu
    · rcases List.mem_append.1 hu with hu | hu
      · rw [List.eq_of_mem_replicate hu]
        decide
      · have hsub : strip0x (address.map asciiLower) ⊆ address.map asciiLower := by
          rw [strip0x]
          split
          · exact List.drop_subset 2 _
          · exact List.Subset.refl _
        obtain ⟨v, hv, rfl⟩ := List.mem_map.1 (hsub hu)
        exact asciiLower_plain (hascii v hv) (h.2 v hv)
  exact ⟨⟨by simp [normalizeSuiAddress, js], fun u hu => (hmem u hu).2.2⟩,
    fun u hu => ⟨(hmem u hu).1, (hmem u hu).2.1⟩⟩

/-- Reading an address that was read changes nothing. -/
theorem normalizeSuiAddress_idem {address : JsString} (h : Plain address)
    (hascii : ∀ u ∈ address, u < 0x80) :
    normalizeSuiAddress lower (normalizeSuiAddress lower address) =
      normalizeSuiAddress lower address := by
  obtain ⟨-, hunits⟩ := plain_normalizeSuiAddress lower h hascii
  have hlow : lower.toLowerCase (normalizeSuiAddress lower address) =
      normalizeSuiAddress lower address := by
    rw [lower.ascii _ fun u hu => (hunits u hu).1]
    exact (List.map_congr_left fun u hu => (hunits u hu).2).trans (List.map_id _)
  have hpad (t : JsString) : padStart (padStart t 64 0x30) 64 0x30 = padStart t 64 0x30 := by
    have hle : 64 ≤ (padStart t 64 0x30).length := by
      rw [length_padStart]
      exact le_max_left _ _
    rw [padStart, Nat.sub_eq_zero_of_le hle]
    rfl
  rw [normalizeSuiAddress_eq, typedDigits, hlow, normalizeSuiAddress_eq, strip0x_append, hpad]

/-- **The tag of a spelling is canonical.** -/
theorem Spells.canonical (h : Spells lower normalizeAddress str tag) :
    Canonical lower normalizeAddress tag := by
  have haddress {address : JsString} (ha : Plain address) (hascii : ∀ u ∈ address, u < 0x80) :
      Plain (readAddress lower normalizeAddress address) ∧
      (∀ u ∈ readAddress lower normalizeAddress address, u < 0x80) ∧
      readAddress lower normalizeAddress (readAddress lower normalizeAddress address) =
        readAddress lower normalizeAddress address := by
    cases normalizeAddress with
    | false => exact ⟨ha, hascii, rfl⟩
    | true =>
      obtain ⟨hplain, hunits⟩ := plain_normalizeSuiAddress lower ha hascii
      exact ⟨hplain, fun u hu => (hunits u hu).1, normalizeSuiAddress_idem ha hascii⟩
  induction h with
  | primitive h => exact .primitive h
  | vector _ ih => exact .vector ih
  | struct ha hascii hmodule hname =>
    obtain ⟨h1, h2, h3⟩ := haddress ha hascii
    exact .struct h1 h2 hmodule hname h3 (by simp)
  | generic ha hascii hmodule hname args _ _ _ ih =>
    obtain ⟨h1, h2, h3⟩ := haddress ha hascii
    refine .struct h1 h2 hmodule hname h3 fun t ht => ?_
    obtain ⟨x, hx, rfl⟩ := List.mem_map.1 ht
    exact ih x hx

/-- The arguments as they are printed.  The blank after a comma belongs to the argument
that follows. -/
def printedArgs : List TypeTag → List Arg
  | [] => []
  | p :: ps => ⟨[], tagToString p, [], p⟩ :: ps.map fun q => ⟨js " ", tagToString q, [], q⟩

theorem tag_printedArgs (params : List TypeTag) : (printedArgs params).map Arg.tag = params := by
  cases params with
  | nil => rfl
  | cons p ps => simp [printedArgs, Function.comp_def]

theorem join_printedArgs (params : List TypeTag) :
    Split.join (js ",") ((printedArgs params).map Arg.spelling) =
      Split.join (js ", ") (tagsToString params) := by
  cases params with
  | nil => rfl
  | cons p ps =>
    rw [tagsToString_eq, List.map_cons]
    refine Eq.trans ?_ (Split.join_cons (unit ',') (js " ") _ _).symm
    simp [printedArgs, Arg.spelling, js, Function.comp_def]

theorem blank_space : Blank (js " ") := by
  unfold Blank
  decide

theorem mem_printedArgs {params : List TypeTag} {x : Arg} (hx : x ∈ printedArgs params) :
    Blank x.before ∧ Blank x.after ∧ x.text = tagToString x.tag ∧ x.tag ∈ params := by
  cases params with
  | nil => cases hx
  | cons p ps =>
    rcases List.mem_cons.1 hx with rfl | hx
    · exact ⟨by simp [Blank], by simp [Blank], rfl, by simp⟩
    · obtain ⟨q, hq, rfl⟩ := List.mem_map.1 hx
      exact ⟨blank_space, by simp [Blank], rfl, by simp [hq]⟩

/-- **A canonical tag is printed as one of its spellings.** -/
theorem Canonical.spells (h : Canonical lower normalizeAddress tag) :
    Spells lower normalizeAddress (tagToString tag) tag := by
  induction h with
  | @primitive str tag h =>
    have hprint : tagToString tag = str := by
      have hall : ∀ p ∈ primitives, tagToString p.2 = p.1 := by decide
      exact hall _ (mem_of_primitive h)
    rw [hprint]
    exact .primitive h
  | vector _ ih => exact .vector ih
  | @struct address moduleName name params haddress hascii hmodule hname hread _ ih =>
    by_cases hnil : params = []
    · subst hnil
      have hspells : Spells lower normalizeAddress (path address moduleName name)
          (.struct (readAddress lower normalizeAddress address) moduleName name []) :=
        .struct haddress hascii hmodule hname
      rw [hread] at hspells
      simpa [tagToString, tagsToString, Split.join, path] using hspells
    · have hargs : ∀ x ∈ printedArgs params, Spells lower normalizeAddress x.text x.tag := by
        intro x hx
        obtain ⟨-, -, htext, htag⟩ := mem_printedArgs hx
        rw [htext]
        exact ih _ htag
      have hne : printedArgs params ≠ [] := by
        intro h
        rw [← tag_printedArgs params, h] at hnil
        exact hnil rfl
      have hspells := Spells.generic haddress hascii hmodule hname _ hne hargs fun x hx =>
        ⟨(mem_printedArgs hx).1, (mem_printedArgs hx).2.1⟩
      have hjoin := join_ne_nil hne fun x hx => (hargs x hx).word
      rw [hread, tag_printedArgs, join_printedArgs] at hspells
      rw [join_printedArgs] at hjoin
      rw [tagToString, if_neg hjoin]
      exact hspells

example : (parseFromStr .asciiOnly false (js "0x2::a::B<vector<u8> ,u64>")).map tagToString =
    .ok (js "0x2::a::B<vector<u8>, u64>") := by
  decide +kernel

end BookMarket.Wire

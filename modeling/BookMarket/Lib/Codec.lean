import Mathlib.Data.List.Basic
import Mathlib.Data.Int.Basic

/-!
# Codecs

A codec writes values to a medium and reads them back.  What is written comes in chunks,
since a medium may care for where they end; what is read is a stream of symbols.

Reading need not give back the value that was written, but a normal form of it: an equal
value in other words.

* `Medium` — something to write to and to read from.
* `Faithful` — a value is written, and read back as another one that is written the same.
* `seq`, `transform`, `constant`, `variant`, `counted`, `tagged` — how codecs are built,
  and that each of them is faithful where its parts are.
-/

/-- A codec for values of type `α`. -/
structure Codec (ω ρ ε α : Type) where
  write : α → ω → Except ε ω
  read : ρ → Except ε (α × ρ)

namespace Codec

theorem bind_ok {ε α γ : Type} (a : α) (f : α → Except ε γ) : (Except.ok a >>= f) = f a :=
  rfl

/-- What codecs write to and read from.  Only some chunks are ever written at once. -/
structure Medium (β ω ρ ε : Type) where
  put : List β → ω → Except ε ω
  Chunk : List β → Prop
  ahead : ρ → List β
  advance : ρ → ℕ → ρ
  ahead_advance : ∀ r n, ahead (advance r n) = (ahead r).drop n
  advance_zero : ∀ r, advance r 0 = r
  advance_advance : ∀ r m n, advance (advance r m) n = advance r (m + n)

variable {α α' β ω ρ ε γ : Type}

/-- One chunk after the other. -/
def Medium.putAll (M : Medium β ω ρ ε) : List (List β) → ω → Except ε ω
  | [], w => .ok w
  | c :: cs, w => M.put c w >>= M.putAll cs

theorem Medium.putAll_append (M : Medium β ω ρ ε) (cs ds : List (List β)) (w : ω) :
    M.putAll (cs ++ ds) w = M.putAll cs w >>= M.putAll ds := by
  induction cs generalizing w with
  | nil => rfl
  | cons c cs ih =>
    simp only [List.cons_append, putAll]
    cases h : M.put c w with
    | error e => rfl
    | ok w' => exact ih w'

/-- The value `v` is written and read back as `o`, which is written as the same. -/
structure Codes (M : Medium β ω ρ ε) (c : Codec ω ρ ε α) (v o : α) (chunks : List (List β)) :
    Prop where
  chunk : ∀ x ∈ chunks, M.Chunk x
  write : ∀ w, c.write v w = M.putAll chunks w
  rewrite : ∀ w, c.write o w = M.putAll chunks w
  read : ∀ r rest, M.ahead r = chunks.flatten ++ rest →
    c.read r = .ok (o, M.advance r chunks.flatten.length)

def Faithful (M : Medium β ω ρ ε) (c : Codec ω ρ ε α) (v o : α) : Prop :=
  ∃ chunks, Codes M c v o chunks

/-- What is read back is read back as it is. -/
theorem Faithful.self {M : Medium β ω ρ ε} {c : Codec ω ρ ε α} {v o : α} (h : Faithful M c v o) :
    Faithful M c o o := by
  obtain ⟨chunks, h⟩ := h
  exact ⟨chunks, h.chunk, h.rewrite, h.rewrite, h.read⟩

/-! ## One after the other -/

def seq (c : Codec ω ρ ε α) (d : Codec ω ρ ε α') : Codec ω ρ ε (α × α') where
  write v w := c.write v.1 w >>= d.write v.2
  read r := do
    let (a, r) ← c.read r
    let (b, r) ← d.read r
    return ((a, b), r)

variable {M : Medium β ω ρ ε} {c : Codec ω ρ ε α} {d : Codec ω ρ ε α'}

theorem Codes.bind {v o : α} {cs ds : List (List β)} (h : Codes M c v o cs) {w : ω}
    {k : ω → Except ε ω} (hk : ∀ w, k w = M.putAll ds w) :
    (c.write v w >>= k) = M.putAll (cs ++ ds) w := by
  rw [h.write, M.putAll_append]
  exact congrArg _ (funext hk)

theorem Codes.rebind {v o : α} {cs ds : List (List β)} (h : Codes M c v o cs) {w : ω}
    {k : ω → Except ε ω} (hk : ∀ w, k w = M.putAll ds w) :
    (c.write o w >>= k) = M.putAll (cs ++ ds) w := by
  rw [h.rewrite, M.putAll_append]
  exact congrArg _ (funext hk)

/-- What is ahead after a value has been read. -/
theorem ahead_after {r : ρ} {cs ds : List (List β)} {rest : List β}
    (h : M.ahead r = (cs ++ ds).flatten ++ rest) :
    M.ahead r = cs.flatten ++ (ds.flatten ++ rest) ∧
      M.ahead (M.advance r cs.flatten.length) = ds.flatten ++ rest := by
  rw [List.flatten_append, List.append_assoc] at h
  refine ⟨h, ?_⟩
  rw [M.ahead_advance, h, List.drop_left]

theorem Codes.seq {v o : α} {v' o' : α'} {cs ds : List (List β)} (h : Codes M c v o cs)
    (h' : Codes M d v' o' ds) : Codes M (c.seq d) (v, v') (o, o') (cs ++ ds) where
  chunk := List.forall_mem_append.2 ⟨h.chunk, h'.chunk⟩
  write _ := h.bind h'.write
  rewrite _ := h.rebind h'.rewrite
  read r rest hr := by
    obtain ⟨h1, h2⟩ := ahead_after hr
    simp only [Codec.seq, h.read r _ h1, bind_ok, h'.read _ _ h2, M.advance_advance,
      List.flatten_append, List.length_append]
    rfl

theorem Faithful.seq {v o : α} {v' o' : α'} (h : Faithful M c v o) (h' : Faithful M d v' o') :
    Faithful M (c.seq d) (v, v') (o, o') := by
  obtain ⟨cs, h⟩ := h
  obtain ⟨ds, h'⟩ := h'
  exact ⟨cs ++ ds, h.seq h'⟩

/-! ## Other forms of a value -/

/-- The value is written in another form, and read from it. -/
def transform (c : Codec ω ρ ε α) (input : γ → Except ε α) (output : α → γ) : Codec ω ρ ε γ where
  write v w := input v >>= fun a => c.write a w
  read r := do
    let (a, r) ← c.read r
    return (output a, r)

theorem Faithful.transform {input : γ → Except ε α} {output : α → γ} {v : γ} {a o : α}
    (h : Faithful M c a o) (hv : input v = .ok a) (ho : input (output o) = .ok o) :
    Faithful M (c.transform input output) v (output o) := by
  obtain ⟨cs, h⟩ := h
  refine ⟨cs, h.chunk, fun w => ?_, fun w => ?_, fun r rest hr => ?_⟩
  · simp only [Codec.transform, hv]
    exact h.write w
  · simp only [Codec.transform, ho]
    exact h.rewrite w
  · simp only [Codec.transform, h.read r rest hr]
    rfl

/-! ## Variants -/

/-- A variant without data. -/
def constant (v : α) : Codec ω ρ ε α where
  write _ w := .ok w
  read r := .ok (v, r)

theorem faithful_constant (v : α) : Faithful M (constant v) v v := by
  refine ⟨[], by simp, fun _ => rfl, fun _ => rfl, fun r rest _ => ?_⟩
  rw [List.flatten_nil, List.length_nil, M.advance_zero]
  rfl

/-- A variant with data. -/
def variant (c : Codec ω ρ ε α) (make : α → γ) (get : γ → Option α) : Codec ω ρ ε γ where
  write v w := match get v with
    | some a => c.write a w
    | none => .ok w
  read r := do
    let (a, r) ← c.read r
    return (make a, r)

theorem Faithful.variant {make : α → γ} {get : γ → Option α} {v o : α} (h : Faithful M c v o)
    (hv : get (make v) = some v) (ho : get (make o) = some o) :
    Faithful M (c.variant make get) (make v) (make o) := by
  obtain ⟨cs, h⟩ := h
  refine ⟨cs, h.chunk, fun w => ?_, fun w => ?_, fun r rest hr => ?_⟩
  · simp only [Codec.variant, hv]
    exact h.write w
  · simp only [Codec.variant, ho]
    exact h.rewrite w
  · simp only [Codec.variant, h.read r rest hr]
    rfl

/-- One of several variants, told apart by a number in front. -/
def tagged (number : Codec ω ρ ε ℤ) (invalid : ε) (cases : List (Codec ω ρ ε α))
    (indexOf : α → ℕ) : Codec ω ρ ε α where
  write v w := number.write (indexOf v) w >>= fun w =>
    match cases[indexOf v]? with
    | some c => c.write v w
    | none => .ok w
  read r := do
    let (i, r) ← number.read r
    if i < 0 then .error invalid
    else match cases[i.toNat]? with
      | some c => c.read r
      | none => .error invalid

theorem Faithful.tagged {number : Codec ω ρ ε ℤ} {invalid : ε} {cases : List (Codec ω ρ ε α)}
    {indexOf : α → ℕ} {v o : α} {i : ℕ} (hc : cases[i]? = some c) (hv : indexOf v = i)
    (ho : indexOf o = i) (hi : Faithful M number (i : ℤ) i) (h : Faithful M c v o) :
    Faithful M (tagged number invalid cases indexOf) v o := by
  obtain ⟨cs, hi⟩ := hi
  obtain ⟨ds, h⟩ := h
  refine ⟨cs ++ ds, List.forall_mem_append.2 ⟨hi.chunk, h.chunk⟩, fun w => ?_, fun w => ?_,
    fun r rest hr => ?_⟩
  · simp only [Codec.tagged, hv, hc]
    exact hi.bind h.write
  · simp only [Codec.tagged, ho, hc]
    exact hi.rebind h.rewrite
  · obtain ⟨h1, h2⟩ := ahead_after hr
    have hneg : ¬ (i : ℤ) < 0 := by omega
    simp only [Codec.tagged, hi.read r _ h1, bind_ok, if_neg hneg, Int.toNat_natCast, hc,
      h.read _ _ h2, M.advance_advance, List.flatten_append, List.length_append]

/-! ## Lists -/

def writeMany (c : Codec ω ρ ε α) : List α → ω → Except ε ω
  | [], w => .ok w
  | v :: vs, w => c.write v w >>= c.writeMany vs

def readMany (c : Codec ω ρ ε α) : ℕ → ρ → Except ε (List α × ρ)
  | 0, r => .ok ([], r)
  | n + 1, r => do
    let (v, r) ← c.read r
    let (vs, r) ← c.readMany n r
    return (v :: vs, r)

/-- A list, with its length in front. -/
def counted (number : Codec ω ρ ε ℤ) (invalid : ε) (c : Codec ω ρ ε α) :
    Codec ω ρ ε (List α) where
  write vs w := number.write vs.length w >>= c.writeMany vs
  read r := do
    let (n, r) ← number.read r
    if n < 0 then .error invalid else c.readMany n.toNat r

/-- What is written for the members of a list is read back. -/
theorem codes_many {normal : α → α} {vs : List α} (h : ∀ v ∈ vs, Faithful M c v (normal v)) :
    ∃ chunks, (∀ x ∈ chunks, M.Chunk x) ∧ (∀ w, c.writeMany vs w = M.putAll chunks w) ∧
      (∀ w, c.writeMany (vs.map normal) w = M.putAll chunks w) ∧
      ∀ r rest, M.ahead r = chunks.flatten ++ rest →
        c.readMany vs.length r = .ok (vs.map normal, M.advance r chunks.flatten.length) := by
  induction vs with
  | nil =>
    refine ⟨[], by simp, fun _ => rfl, fun _ => rfl, fun r rest _ => ?_⟩
    rw [List.flatten_nil, List.length_nil, List.length_nil, M.advance_zero]
    rfl
  | cons v vs ih =>
    obtain ⟨cs, hv⟩ := h v (by simp)
    obtain ⟨ds, hchunk, hwrite, hrewrite, hread⟩ := ih fun u hu => h u (by simp [hu])
    refine ⟨cs ++ ds, List.forall_mem_append.2 ⟨hv.chunk, hchunk⟩, fun w => hv.bind hwrite,
      fun w => hv.rebind hrewrite, fun r rest hr => ?_⟩
    obtain ⟨h1, h2⟩ := ahead_after hr
    simp only [List.length_cons, readMany, hv.read r _ h1, bind_ok, hread _ _ h2, M.advance_advance,
      List.flatten_append, List.length_append, List.map_cons]
    rfl

/-- **A list is read back as the list of what its members are read back as.** -/
theorem Faithful.counted {number : Codec ω ρ ε ℤ} {invalid : ε} {normal : α → α} {vs : List α}
    (hn : Faithful M number (vs.length : ℤ) vs.length)
    (h : ∀ v ∈ vs, Faithful M c v (normal v)) :
    Faithful M (counted number invalid c) vs (vs.map normal) := by
  obtain ⟨cs, hn⟩ := hn
  obtain ⟨ds, hchunk, hwrite, hrewrite, hread⟩ := codes_many h
  refine ⟨cs ++ ds, List.forall_mem_append.2 ⟨hn.chunk, hchunk⟩, fun w => hn.bind hwrite,
    fun w => ?_, fun r rest hr => ?_⟩
  · simp only [Codec.counted, List.length_map]
    exact hn.bind hrewrite
  · obtain ⟨h1, h2⟩ := ahead_after hr
    have hneg : ¬ (vs.length : ℤ) < 0 := by omega
    simp only [Codec.counted, hn.read r _ h1, bind_ok, if_neg hneg, Int.toNat_natCast, hread _ _ h2,
      M.advance_advance, List.flatten_append, List.length_append]

end Codec

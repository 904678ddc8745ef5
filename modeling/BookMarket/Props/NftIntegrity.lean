import BookMarket.Chain.Contents
import BookMarket.Props.Exit

/-!
# The integrity of an NFT

What an NFT says is what its minter and the last update say, wherever it has
been in the meantime.  The log of the calls tells it completely: the mint that
created the identifier, which is the only one, and the updates since.

* `Provenance` — an NFT, as the log tells it.
* `History.provenance` — every NFT there is has its provenance.
* `History.burned` — a burned identifier stays empty.
* `History.untouched` — a listed item cannot be moved, changed or burned.
* `nftIntegrity` — **NFT integrity across both modules.**
-/

namespace BookMarket

open Runs
open Function (update)

variable {A : Type} [DecidableEq A]

/-! ## What the log tells -/

/-- The call of the log that created the NFT `id`. -/
def Entry.mints (id : A) (e : Entry A) : Prop :=
  ∃ title description content url nft, e.call = .mintToSender title description content url ∧
    e.out = some ⟨id, .item (.bookNFT nft)⟩

/-- The description given by the last successful `update_description` on `id` in the
log, or else `d`. -/
def lastDescription (id : A) (d : List UInt8) (h : List (Entry A)) : List UInt8 :=
  h.foldl (fun d e =>
    match e.call with
    | .updateDescription id' d' => if id' = id then d' else d
    | _ => d) d

/-- The NFT `id` as the log tells it: title, author, content and url are those of
the one mint that created the identifier, the author being its sender, and the
description is the last one given since; nobody has burned it. -/
def Provenance (h : List (Entry A)) (id : A) (nft : BookNFT A) : Prop :=
  ∃ before mint after title description content url minted,
    h = before ++ mint :: after ∧
    mint.call = .mintToSender title description content url ∧
    mint.out = some ⟨id, .item (.bookNFT minted)⟩ ∧
    (∀ e ∈ before ++ after, ¬ e.mints id) ∧ (∀ e ∈ after, e.call ≠ .burn id) ∧
    utf8 title = .ok nft.title ∧ nft.author = mint.sender ∧ utf8 content = .ok nft.content ∧
    newUnsafeFromBytes url = .ok nft.url ∧
    utf8 (lastDescription id description after) = .ok nft.description

/-- Calls that would move, change or burn the item `id`. -/
def Call.touches (id : A) (call : Call A) : Prop :=
  (∃ r, call = .transfer id r) ∨ (∃ r, call = .publicTransfer id r) ∨
    (∃ d, call = .updateDescription id d) ∨ call = .burn id

theorem lastDescription_append (id : A) (d : List UInt8) (h : List (Entry A)) (e : Entry A) :
    lastDescription id d (h ++ [e]) = match e.call with
      | .updateDescription id' d' => if id' = id then d' else lastDescription id d h
      | _ => lastDescription id d h := by
  simp only [lastDescription, List.foldl_append, List.foldl_cons, List.foldl_nil]

omit [DecidableEq A] in
theorem newNft_eq_ok {sender : A} {title description content url : List UInt8} {nft : BookNFT A}
    (h : BookNft.newNft sender title description content url = .ok nft) :
    utf8 title = .ok nft.title ∧ nft.author = sender ∧ utf8 description = .ok nft.description ∧
      utf8 content = .ok nft.content ∧ newUnsafeFromBytes url = .ok nft.url := by
  obtain ⟨t, h1, h⟩ := bind_eq_ok.1 h
  obtain ⟨d, h2, h⟩ := bind_eq_ok.1 h
  obtain ⟨c, h3, h⟩ := bind_eq_ok.1 h
  obtain ⟨u, h4, h⟩ := bind_eq_ok.1 h
  cases h
  exact ⟨h1, rfl, h2, h3, h4⟩

omit [DecidableEq A] in
theorem updateDescription_eq_ok {nft nft' : BookNFT A} {d : List UInt8}
    (h : BookNft.updateDescription nft d = .ok nft') :
    ∃ s, utf8 d = .ok s ∧ nft' = { nft with description := s } := by
  obtain ⟨s, h1, h⟩ := bind_eq_ok.1 h
  cases h
  exact ⟨s, h1, rfl⟩

namespace Provenance

variable {h : List (Entry A)} {id : A} {nft : BookNFT A} {e : Entry A}

/-- A call that neither creates nor burns the NFT can only change its description. -/
theorem extend (hp : Provenance h id nft) (hm : ¬ e.mints id) (hb : e.call ≠ .burn id)
    {s : MoveString} (hd : ∀ d after, utf8 (lastDescription id d after) = .ok nft.description →
      utf8 (lastDescription id d (after ++ [e])) = .ok s) :
    Provenance (h ++ [e]) id { nft with description := s } := by
  obtain ⟨before, mint, after, title, description, content, url, minted, rfl, h1, h2, h3, h4, h5,
    h6, h7, h8, h9⟩ := hp
  refine ⟨before, mint, after ++ [e], title, description, content, url, minted, by simp, h1, h2,
    ?_, ?_, h5, h6, h7, h8, hd _ _ h9⟩
  · intro e' he'
    rw [← List.append_assoc] at he'
    rcases List.mem_append.1 he' with he' | he'
    · exact h3 e' he'
    · rw [List.mem_singleton.1 he']
      exact hm
  · intro e' he'
    rcases List.mem_append.1 he' with he' | he'
    · exact h4 e' he'
    · rw [List.mem_singleton.1 he']
      exact hb

/-- A call that neither creates, updates nor burns the NFT. -/
theorem snoc (hp : Provenance h id nft) (hm : ¬ e.mints id) (hb : e.call ≠ .burn id)
    (hu : ∀ d, e.call ≠ .updateDescription id d) : Provenance (h ++ [e]) id nft := by
  refine hp.extend hm hb fun d after hd => ?_
  rw [lastDescription_append]
  split
  · next id' d' hcall =>
    have hne : id' ≠ id := by
      rintro rfl
      exact hu d' hcall
    rw [if_neg hne]
    exact hd
  · exact hd

/-- An update. -/
theorem updated (hp : Provenance h id nft) {d : List UInt8} {s : MoveString}
    (hcall : e.call = .updateDescription id d) (hs : utf8 d = .ok s) :
    Provenance (h ++ [e]) id { nft with description := s } := by
  refine hp.extend ?_ (by simp [hcall]) fun d' after _ => ?_
  · rintro ⟨_, _, _, _, _, hc, -⟩
    rw [hcall] at hc
    cases hc
  · rw [lastDescription_append, hcall]
    simpa using hs

end Provenance

variable [AddressSpace A]

/-! ## Identifiers in the log -/

namespace Effect

variable {w w' : World A} {ctx ctx' : TxContext A} {call : Call A} {out : Option (Obj A)}

/-- What a call hands out has an identifier that is in use. -/
theorem used_out (h : Effect w ctx call out w' ctx') {o : Objects A} (hl : Layout ctx w o)
    {obj : Obj A} (ho : out = some obj) : Used ctx' obj.id := by
  cases h with
  | delist hop hm hw hs ht =>
    cases ho
    exact hl.used_item hw
  | buy hop hm hf hw ht hc =>
    cases ho
    exact hl.used_item hw
  | takeProfits hop hm hp =>
    cases ho
    exact hl.used_coin hp
  | mintToSender | createCurrency | coinMint | coinSplit | otherNew =>
    cases ho
    exact used_objectNew ctx
  | _ => cases ho

/-- To move, change or burn an object a transaction has to hold it. -/
theorem free_of_touches (h : Effect w ctx call out w' ctx') {id : A} (ht : call.touches id) :
    ∃ b i, w.free id = some (.transaction b, i) := by
  cases h with
  | move hcall hf =>
    rcases hcall with rfl | rfl <;> rcases ht with ⟨_, ht⟩ | ⟨_, ht⟩ | ⟨_, ht⟩ | ht <;> cases ht <;>
      exact ⟨_, _, hf⟩
  | updateDescription hf | burn hf =>
    rcases ht with ⟨_, ht⟩ | ⟨_, ht⟩ | ⟨_, ht⟩ | ht <;> cases ht
    exact ⟨_, _, hf⟩
  | create hop | list hop | delist hop | buy hop | takeProfits hop =>
    rcases ht with ⟨_, rfl⟩ | ⟨_, rfl⟩ | ⟨_, rfl⟩ | rfl <;> cases hop
  | _ => rcases ht with ⟨_, ht⟩ | ⟨_, ht⟩ | ⟨_, ht⟩ | ht <;> cases ht

/-- What is burned has an identifier that is in use. -/
theorem used_burn (h : Effect w ctx call out w' ctx') {o : Objects A} (hl : Layout ctx w o)
    {id : A} (hb : call = .burn id) : Used ctx' id := by
  obtain ⟨b, i, hf⟩ := h.free_of_touches (Or.inr (Or.inr (Or.inr hb)))
  exact h.used (hl.used_free hf)

theorem mint_inv {title description content url : List UInt8}
    (h : Effect w ctx call out w' ctx') (hm : call = .mintToSender title description content url) :
    ∃ nft, BookNft.newNft ctx.sender title description content url = .ok nft ∧
      out = some ⟨(objectNew ctx).1, .item (.bookNFT nft)⟩ ∧
      w' = w.setFree (objectNew ctx).1 (some (.address ctx.sender, .bookNFT nft)) := by
  cases h with
  | mintToSender hn =>
    cases hm
    exact ⟨_, hn, rfl, rfl⟩
  | create hop | list hop | delist hop | buy hop | takeProfits hop =>
    rw [hm] at hop
    cases hop
  | move hcall => rcases hcall with rfl | rfl <;> cases hm
  | _ => cases hm

end Effect

omit [DecidableEq A] [AddressSpace A] in
/-- Calls that only move items about update and burn nothing. -/
theorem Call.moves.ne {call : Call A} (hm : call.moves) (id : A) :
    call ≠ .burn id ∧ ∀ d, call ≠ .updateDescription id d := by
  rcases hm with hop | ⟨_, _, rfl⟩ | ⟨_, _, rfl⟩ | ⟨_, _, _, rfl⟩
  · constructor
    · rintro rfl
      exact hop rfl
    · rintro d rfl
      exact hop rfl
  all_goals simp

namespace Reshape

variable {ctx : TxContext A} {f f' : A → Option (Item A)} {call : Call A} {id : A}

/-- Where an NFT that exists after a call comes from. -/
theorem nft_inv (h : Reshape ctx f call f') {nft : BookNFT A} (hn : f' id = some (.bookNFT nft)) :
    (f id = some (.bookNFT nft) ∧ call ≠ .burn id ∧ ∀ d, call ≠ .updateDescription id d) ∨
    (∃ old d, f id = some (.bookNFT old) ∧ call = .updateDescription id d ∧
      BookNft.updateDescription old d = .ok nft) ∨
    (id = (objectNew ctx).1 ∧ ∃ title description content url,
      call = .mintToSender title description content url ∧
      BookNft.newNft ctx.sender title description content url = .ok nft) := by
  -- a write elsewhere, or of something that is no NFT, leaves the NFT as it was
  have hkeep {g : A → Option (Item A)} {a : A} {v : Option (Item A)}
      (h : update g a v id = some (.bookNFT nft)) (hv : v ≠ some (.bookNFT nft)) :
      id ≠ a ∧ g id = some (.bookNFT nft) := by
    by_cases ha : id = a
    · subst ha
      rw [Function.update_self] at h
      exact absurd h hv
    · rw [Function.update_of_ne ha] at h
      exact ⟨ha, h⟩
  cases h with
  | same hm => exact Or.inl ⟨hn, hm.ne id⟩
  | merge hm => exact Or.inl ⟨(hkeep (hkeep hn (by simp)).2 (by simp)).2, hm.ne id⟩
  | @mintToSender title description content url minted hnew =>
    by_cases hid : id = (objectNew ctx).1
    · subst hid
      rw [Function.update_self] at hn
      cases hn
      exact Or.inr (Or.inr ⟨rfl, title, description, content, url, rfl, hnew⟩)
    · rw [Function.update_of_ne hid] at hn
      exact Or.inl ⟨hn, by simp, by simp⟩
  | @updateDescription id' d old nft' hf hnew =>
    by_cases hid : id = id'
    · subst hid
      rw [Function.update_self] at hn
      cases hn
      exact Or.inr (Or.inl ⟨old, d, hf, rfl, hnew⟩)
    · rw [Function.update_of_ne hid] at hn
      exact Or.inl ⟨hn, by simp, by simp [Ne.symm hid]⟩
  | burn =>
    obtain ⟨hid, hn⟩ := hkeep hn (by simp)
    exact Or.inl ⟨hn, by simp [Ne.symm hid], by simp⟩
  | createCurrency | otherNew | otherSet | otherDelete =>
    exact Or.inl ⟨(hkeep hn (by simp)).2, by simp, by simp⟩
  | coinMint | coinBurn | coinSplit =>
    exact Or.inl ⟨(hkeep (hkeep hn (by simp)).2 (by simp)).2, by simp, by simp⟩

/-- Where there is nothing under an identifier in use, nothing appears. -/
theorem none_stays (h : Reshape ctx f call f') (hu : Used ctx id) (hid : f id = none) :
    f' id = none := by
  have hnew : id ≠ (objectNew ctx).1 := by
    rintro rfl
    exact not_used_objectNew ctx hu
  have hne {a : A} {i : Item A} (ha : f a = some i) : id ≠ a := by
    rintro rfl
    rw [hid] at ha
    cases ha
  cases h with
  | same => exact hid
  | merge _ hi hm => rw [Function.update_of_ne (hne hi), Function.update_of_ne (hne hm), hid]
  | mintToSender | createCurrency | otherNew => rw [Function.update_of_ne hnew, hid]
  | updateDescription hf | burn hf | otherSet hf | otherDelete hf =>
    rw [Function.update_of_ne (hne hf), hid]
  | coinMint hf | coinSplit hf =>
    rw [Function.update_of_ne hnew, Function.update_of_ne (hne hf), hid]
  | coinBurn hc hf => rw [Function.update_of_ne (hne hf), Function.update_of_ne (hne hc), hid]

end Reshape

namespace History

variable {h : List (Entry A)} {c c' : Chain A}

/-- Whatever was handed out or burned has an identifier that is in use. -/
theorem used_of_log (hc : History h c) :
    ∀ e ∈ h, (∀ obj, e.out = some obj → Used c.ctx obj.id) ∧
      ∀ id, e.call = .burn id → Used c.ctx id := by
  refine hc.rule (I := fun h _ ctx => ∀ e ∈ h, (∀ obj, e.out = some obj → Used ctx obj.id) ∧
    ∀ id, e.call = .burn id → Used ctx id) ?_ ?_ ?_
  · intro _ e he
    exact (List.not_mem_nil he).elim
  · intro h w w' ctx ctx' hi _ hu e he
    exact ⟨fun obj ho => hu _ ((hi e he).1 obj ho), fun id hb => hu _ ((hi e he).2 id hb)⟩
  · intro h call out c c' hc hc' hi heff e he
    rcases List.mem_append.1 he with he | he
    · exact ⟨fun obj ho => heff.used ((hi e he).1 obj ho),
        fun id hb => heff.used ((hi e he).2 id hb)⟩
    · rw [List.mem_singleton.1 he]
      exact ⟨fun obj ho => heff.used_out hc.layout ho, fun id hb => heff.used_burn hc.layout hb⟩

/-- A fresh identifier has not been minted before. -/
theorem not_mints_objectNew (hc : History h c) : ∀ e ∈ h, ¬ e.mints (objectNew c.ctx).1 := by
  rintro e he ⟨_, _, _, _, nft, -, ho⟩
  exact not_used_objectNew c.ctx ((hc.used_of_log e he).1 _ ho)

theorem ne_objectNew (hc : History h c) {id : A} {i : Item A}
    (hi : itemAt c.objects id = some i) : id ≠ (objectNew c.ctx).1 := by
  rintro rfl
  exact not_used_objectNew c.ctx (hc.layout.itemAt_used hi)

/-! ## The provenance of every NFT -/

/-- A call mints no other identifier than the fresh one. -/
theorem not_mints (hc : History h c) {call : Call A} {out : Option (Obj A)} {id : A}
    (he : BookMarket.exec c call = .ok (c', out)) (hid : id ≠ (objectNew c.ctx).1) :
    ¬ Entry.mints id ⟨c.ctx.sender, call, out⟩ := by
  rintro ⟨_, _, _, _, nft, hcall, ho⟩
  obtain ⟨nft', -, ho', -⟩ := (hc.effect he).mint_inv hcall
  cases ho.symm.trans ho'
  exact hid rfl

/-- **Every NFT there is has its provenance.** -/
theorem provenance (hc : History h c) {id : A} {nft : BookNFT A}
    (hi : itemAt c.objects id = some (.bookNFT nft)) : Provenance h id nft := by
  refine contentsRule (I := fun h o => ∀ id nft, itemAt o id = some (.bookNFT nft) →
    Provenance h id nft) ?_ ?_ ?_ hc id nft hi
  · intro id nft hi
    cases hi
  · intro h o o' hi heq id nft hn
    exact hi id nft (heq ▸ hn)
  · intro h call out c c' hc hi he id nft hn
    rcases (hc.reshape he).nft_inv hn with ⟨hold, hb, hu⟩ | ⟨old, d, hold, rfl, hnew⟩ |
      ⟨rfl, title, description, content, url, rfl, hnew⟩
    · exact (hi id nft hold).snoc (hc.not_mints he (hc.ne_objectNew hold)) hb hu
    · obtain ⟨s, hs, rfl⟩ := updateDescription_eq_ok hnew
      exact (hi id old hold).updated rfl hs
    · obtain ⟨minted, hm, hout, -⟩ := (hc.effect he).mint_inv rfl
      cases hm.symm.trans hnew
      obtain ⟨h1, h2, h3, h4, h5⟩ := newNft_eq_ok hnew
      refine ⟨h, _, [], title, description, content, url, nft, rfl, rfl, hout, ?_, ?_, h1, h2, h4,
        h5, h3⟩
      · rw [List.append_nil]
        exact hc.not_mints_objectNew
      · exact List.forall_mem_nil _

/-- **A burned identifier stays empty.** -/
theorem burned (hc : History h c) {e : Entry A} (he : e ∈ h) {id : A} (hb : e.call = .burn id) :
    itemAt c.objects id = none := by
  refine contentsRule (I := fun h o => ∀ e ∈ h, ∀ id, e.call = .burn id → itemAt o id = none)
    ?_ ?_ ?_ hc e he id hb
  · intro e he
    exact (List.not_mem_nil he).elim
  · intro h o o' hi heq e he id hb
    rw [heq]
    exact hi e he id hb
  · intro h call out c c' hc hi hexec e he id hb
    have hr := hc.reshape hexec
    rcases List.mem_append.1 he with he | he
    · exact hr.none_stays ((hc.used_of_log e he).2 id hb) (hi e he id hb)
    · obtain rfl := List.mem_singleton.1 he
      cases hb
      generalize itemAt c'.objects = f' at hr
      cases hr with
      | same hm | merge hm => exact absurd rfl (hm.ne id).1
      | burn => exact Function.update_self _ _ _

/-! ## While it is listed -/

/-- **A listed item cannot be moved, changed or burned.** -/
theorem untouched (hc : History h c) {m id : A} {L : Slot A}
    (hL : listingAt c.objects m id = some L) {call : Call A} {out : Option (Obj A)}
    (he : BookMarket.exec c call = .ok (c', out)) : ¬ call.touches id := by
  intro ht
  obtain ⟨b, i, hf⟩ := (hc.effect he).free_of_touches ht
  exact hc.layout.free_ne_item hf hL rfl

end History

/-! ## The theorem -/

/-- An NFT that is alive: in somebody's hands, or escrowed in a listing. -/
def Live (o : Objects A) (id : A) (nft : BookNFT A) : Prop :=
  (∃ holder, freeAt o id = some (holder, .bookNFT nft)) ∨
    ∃ m L, listingAt o m id = some L ∧ L.item = .bookNFT nft

theorem Live.itemAt {h : List (Entry A)} {c : Chain A} (hc : History h c) {id : A} {nft : BookNFT A}
    (hl : Live c.objects id nft) : BookMarket.itemAt c.objects id = some (.bookNFT nft) := by
  rcases hl with ⟨holder, hf⟩ | ⟨m, L, hw, hi⟩
  · exact hc.layout.itemAt_free hf
  · rw [← hi]
    exact hc.layout.itemAt_slot hw

/-- Nobody touches a listed item along a run in which nobody takes it out. -/
theorem Run.untouched {h : List (Entry A)} {c c' : Chain A} (hc : History h c) {m id : A} {L : Slot A}
    (hL : listingAt c.objects m id = some L) {es : List (Event A)} (hrun : Run Step c es c')
    (hno : ∀ e ∈ calls es, ¬ e.call.exits m id) : ∀ e ∈ calls es, ¬ e.call.touches id := by
  induction hrun with
  | nil => exact List.forall_mem_nil _
  | @snoc es c1 c2 ev hrun hs ih =>
    have hcalls : calls (es ++ [ev]) = calls es ++ calls [ev] := by simp [calls]
    rw [hcalls] at hno ⊢
    have hno1 : ∀ e ∈ calls es, ¬ e.call.exits m id := fun e he => hno e (List.mem_append_left _ he)
    intro e he
    rcases List.mem_append.1 he with he | he
    · exact ih hno1 e he
    · cases hs with
      | call hr hexec =>
        obtain rfl : e = _ := by simpa [calls] using he
        exact (hc.append hrun).untouched (Run.listing_stays hc hL hrun hno1) hexec
      | start => simp [calls] at he
      | finish => simp [calls] at he

/-- **NFT integrity across both modules.**  In every reachable chain: an NFT that is
alive is as its provenance says; an identifier that was burned denotes no live
NFT; and when an NFT is listed, then, until it is taken out, the listing holds it
unchanged, no call touches it, every attempt to do so fails, and the call that
takes it out hands over the NFT that was listed. -/
theorem nftIntegrity {h : List (Entry A)} {c : Chain A} (hc : History h c) :
    (∀ {id nft}, Live c.objects id nft → Provenance h id nft) ∧
    (∀ e ∈ h, ∀ id, e.call = .burn id → ∀ nft, ¬ Live c.objects id nft) ∧
    ∀ {call out c1 t coin m id a holder nft},
      Step c (.call ⟨c.ctx.sender, call, out⟩) c1 → call.op = some (.list t coin m id a) →
      freeAt c.objects id = some (holder, .bookNFT nft) →
      ∀ {es c2}, Run Step c1 es c2 → (∀ e ∈ calls es, ¬ e.call.exits m id) →
        (∃ L, listingAt c2.objects m id = some L ∧ L.item = .bookNFT nft) ∧
        (∀ e ∈ calls es, ¬ e.call.touches id) ∧
        (∀ attempt : Call A, attempt.touches id → ∃ e, exec c2 attempt = .error e) ∧
        ∀ {e c3}, Step c2 (.call e) c3 → e.call.exits m id →
          e.out = some ⟨id, .item (.bookNFT nft)⟩ ∧
          freeAt c3.objects id = some (e.call.receiver e.sender, .bookNFT nft) := by
  refine ⟨fun hl => hc.provenance (hl.itemAt hc), ?_, ?_⟩
  · intro e he id hb nft hl
    cases (hc.burned he hb).symm.trans (hl.itemAt hc)
  intro call out c1 t coin m id a holder nft hs hop hf es c2 hrun hno
  have hc1 := hc.append (.single hs)
  cases hs with
  | call hr he =>
    obtain ⟨b, i, hf', -, hL1⟩ := hc.listed he hop
    cases hf.symm.trans hf'
    have hL2 := Run.listing_stays hc1 hL1 hrun hno
    have hc2 := hc1.append hrun
    refine ⟨⟨_, hL2, rfl⟩, Run.untouched hc1 hL1 hrun hno, ?_, ?_⟩
    · intro attempt ht
      refine exists_error ?_
      rintro ⟨c', out'⟩ hea
      exact hc2.untouched hL2 hea ht
    · intro e c3 hs3 hx
      cases hs3 with
      | call hr2 he2 =>
        have hex := hc2.exitOf hL2 he2 hx
        exact ⟨hex.out, hex.received⟩

/-- A book on its way: user 1 opens a marketplace, mints two books, burns the first,
changes the description of the second and lists it, and user 2 buys it. -/
def oneBook : List (Tx Addr) :=
  [⟨.user 1, [], [.create .sui]⟩,
   ⟨.user 1, [], [.mintToSender [65] [66] [67] [68], .mintToSender [69] [70] [71] [72]]⟩,
   ⟨.user 1, [.derived 2 0], [.burn (.derived 2 0)]⟩,
   ⟨.user 1, [.derived 2 1], [.updateDescription (.derived 2 1) [73]]⟩,
   ⟨.user 2, [], [.createCurrency .sui, .coinMint .sui (.derived 5 0) 5,
     .publicTransfer (.derived 5 0) (.user 2), .publicTransfer (.derived 5 1) (.user 2)]⟩,
   ⟨.user 1, [.derived 2 1], [.list .bookNFT .sui (.derived 1 0) (.derived 2 1) 5]⟩,
   ⟨.user 2, [.derived 5 1],
     [.buyAndTake .bookNFT .sui (.derived 1 0) (.derived 2 1) (.derived 5 1)]⟩]

/-- The second book is user 2's, with its new description, and the first is gone. -/
theorem nftIntegrity_oneBook :
    (∃ nft, Live (run genesis oneBook).1.objects (.derived 2 1) nft ∧
      Provenance (run genesis oneBook).2 (.derived 2 1) nft ∧ nft.author = .user 1 ∧
      nft.description.bytes = [73]) ∧
    ∀ nft, ¬ Live (run genesis oneBook).1.objects (.derived 2 0) nft := by
  obtain ⟨hc, -⟩ := run_history oneBook
  obtain ⟨hprov, hburn, -⟩ := nftIntegrity hc
  refine ⟨?_, ?_⟩
  · have hf : freeAt (run genesis oneBook).1.objects (.derived 2 1) =
        some (.address (.user 2), .bookNFT ⟨⟨[69], by decide⟩, .user 1, ⟨[73], by decide⟩,
          ⟨[71], by decide⟩, ⟨⟨[72], by decide⟩⟩⟩) := by
      decide +kernel
    have hl : Live (run genesis oneBook).1.objects (.derived 2 1) _ := Or.inl ⟨_, hf⟩
    exact ⟨_, hl, hprov hl, rfl, rfl⟩
  · exact hburn ⟨.user 1, .burn (.derived 2 0), none⟩ (by decide +kernel) _ rfl

end BookMarket

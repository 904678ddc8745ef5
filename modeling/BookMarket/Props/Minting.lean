import BookMarket.Sui.Utf8
import BookMarket.Props.NftIntegrity
import BookMarket.Props.Success

/-!
# Minting and its events

`mint_to_sender` checks four byte vectors, two ways: the texts have to be UTF-8, and
the url ASCII.  When it succeeds it emits one event, and the event stays true of the
NFT: neither a transfer, an update nor a sale changes its identifier, its author or
its title.

* `mint_succeeds_iff` — what is accepted.
* `Entry.minted` — the event of a call of the log.
* `exec_events`, `Run.events_eq` — the events are those of the mints, one for each.
* `History.event_of_item` — every NFT there is has its event.
* `EverLive`, `Run.everLive_iff` — the NFTs that ever were.
* `minting` — **minting accepts exactly well-formed text and its events are
  faithful.**
-/

namespace BookMarket

open Runs

variable {A : Type}

/-! ## What is accepted -/

theorem utf8_ok_iff {bytes : List UInt8} : (∃ s, utf8 bytes = .ok s) ↔ WellFormedUtf8 bytes := by
  rw [← internalCheckUtf8_iff, utf8]
  split
  · next h => simp [h]
  · next h => simp [h]

theorem newUnsafeFromBytes_ok_iff {bytes : List UInt8} :
    (∃ url, newUnsafeFromBytes bytes = .ok url) ↔ ∀ b ∈ bytes, b ≤ 0x7F := by
  have hall : bytes.all isValidChar = true ↔ ∀ b ∈ bytes, b ≤ 0x7F := by
    simp [isValidChar]
  rw [← hall, newUnsafeFromBytes, asciiString, tryString]
  by_cases h : bytes.all isValidChar = true
  · rw [dif_pos h]
    exact ⟨fun _ => h, fun _ => ⟨_, rfl⟩⟩
  · rw [dif_neg h]
    refine ⟨?_, fun h' => absurd h' h⟩
    rintro ⟨url, herr⟩
    cases herr

/-- The four checks. -/
theorem newNft_ok_iff (sender : A) (title description content url : List UInt8) :
    (∃ nft, BookNft.newNft sender title description content url = .ok nft) ↔
      WellFormedUtf8 title ∧ WellFormedUtf8 description ∧ WellFormedUtf8 content ∧
        ∀ b ∈ url, b ≤ 0x7F := by
  rw [← utf8_ok_iff, ← utf8_ok_iff, ← utf8_ok_iff, ← newUnsafeFromBytes_ok_iff]
  constructor
  · rintro ⟨nft, hn⟩
    obtain ⟨h1, -, h2, h3, h4⟩ := newNft_eq_ok hn
    exact ⟨⟨_, h1⟩, ⟨_, h2⟩, ⟨_, h3⟩, ⟨_, h4⟩⟩
  · rintro ⟨⟨t, h1⟩, ⟨d, h2⟩, ⟨c, h3⟩, ⟨u, h4⟩⟩
    exact ⟨_, by simp only [BookNft.newNft, h1, h2, h3, h4, ok_bind]; rfl⟩

/-- The event of a call of the log. -/
def Entry.minted (e : Entry A) : Option (NFTMinted A) :=
  match e.call, e.out with
  | .mintToSender .., some ⟨id, .item (.bookNFT nft)⟩ =>
    some { objectId := id, creator := e.sender, name := nft.title }
  | _, _ => none

theorem Entry.minted_eq_some {e : Entry A} {ev : NFTMinted A} :
    e.minted = some ev ↔ ∃ title description content url nft,
      e.call = .mintToSender title description content url ∧
      e.out = some ⟨ev.objectId, .item (.bookNFT nft)⟩ ∧ ev.creator = e.sender ∧
      ev.name = nft.title := by
  obtain ⟨id, creator, name⟩ := ev
  constructor
  · intro h
    rw [Entry.minted] at h
    split at h
    · next title description content url id' nft hcall hout =>
      cases h
      exact ⟨title, description, content, url, nft, hcall, hout, rfl, rfl⟩
    · cases h
  · rintro ⟨title, description, content, url, nft, hcall, hout, rfl, rfl⟩
    rw [Entry.minted, hcall, hout]

variable [DecidableEq A] [AddressSpace A]

/-- **`mint_to_sender` succeeds exactly on well-formed text.** -/
theorem mint_succeeds_iff (c : Chain A) (title description content url : List UInt8) :
    Succeeds c (.mintToSender title description content url) ↔
      WellFormedUtf8 title ∧ WellFormedUtf8 description ∧ WellFormedUtf8 content ∧
        ∀ b ∈ url, b ≤ 0x7F := by
  rw [← newNft_ok_iff c.ctx.sender]
  constructor
  · rintro ⟨c', out, he⟩
    obtain ⟨_, h1, -⟩ := bind_eq_ok.1 he
    obtain ⟨nft, hn, -⟩ := bind_eq_ok.1 h1
    exact ⟨nft, hn⟩
  · rintro ⟨nft, hn⟩
    exact ⟨_, _, by simp only [exec, BookNft.mintToSender, hn, ok_bind, pure_eq_ok]; rfl⟩

/-! ## The events of a run -/

/-- Only `mint_to_sender` emits an event, and this one says what it has handed out. -/
theorem exec_events {c c' : Chain A} {call : Call A} {out : Option (Obj A)}
    (he : exec c call = .ok (c', out)) :
    c'.events = c.events ++ (Entry.minted ⟨c.ctx.sender, call, out⟩).toList := by
  cases call with
  | mintToSender title description content url =>
    obtain ⟨_, h1, h⟩ := bind_eq_ok.1 he
    obtain ⟨nft, hn, h2⟩ := bind_eq_ok.1 h1
    cases h2
    cases h
    rfl
  | create | createCurrency | otherNew =>
    cases he
    simp [Entry.minted]
  -- the others differ in how many things can go wrong before
  | transfer | burn | otherSet | otherDelete =>
    obtain ⟨_, -, h⟩ := bind_eq_ok.1 he
    cases h
    simp [Entry.minted]
  | takeProfits | takeProfitsAndKeep | updateDescription | publicTransfer | coinMint | coinSplit =>
    obtain ⟨_, -, h⟩ := bind_eq_ok.1 he
    obtain ⟨_, -, h⟩ := bind_eq_ok.1 h
    cases h
    simp [Entry.minted]
  | delist | delistAndTake | coinBurn | coinJoin =>
    obtain ⟨_, -, h⟩ := bind_eq_ok.1 he
    obtain ⟨_, -, h⟩ := bind_eq_ok.1 h
    obtain ⟨_, -, h⟩ := bind_eq_ok.1 h
    cases h
    simp [Entry.minted]
  | list | buy | buyAndTake =>
    obtain ⟨_, -, h⟩ := bind_eq_ok.1 he
    obtain ⟨_, -, h⟩ := bind_eq_ok.1 h
    obtain ⟨_, -, h⟩ := bind_eq_ok.1 h
    obtain ⟨_, -, h⟩ := bind_eq_ok.1 h
    cases h
    simp [Entry.minted]

theorem Step.events {c c' : Chain A} {e : Event A} (hs : Step c e c') :
    c'.events = c.events ++ (calls [e]).filterMap Entry.minted := by
  cases hs with
  | start hr h =>
    obtain ⟨_, -, h⟩ := bind_eq_ok.1 h
    cases h
    simp [calls]
  | call hr h =>
    rw [exec_events h]
    simp only [calls, List.filterMap_cons, List.filterMap_nil]
    cases Entry.minted _ <;> rfl
  | finish hr h =>
    simp only [finishTx] at h
    split at h
    · cases h
      simp [calls]
    · cases h

/-- **The events are those of the mints, one for each and in their order.** -/
theorem Run.events_eq {c : Chain A} {es : List (Event A)} (hrun : Run Step genesis es c) :
    c.events = (calls es).filterMap Entry.minted := by
  induction hrun with
  | nil => rfl
  | snoc _ hs ih =>
    rw [hs.events, ih, ← List.filterMap_append]
    simp [calls]

theorem History.events_eq {h : List (Entry A)} {c : Chain A} (hc : History h c) :
    c.events = h.filterMap Entry.minted := by
  obtain ⟨es, hrun, rfl⟩ := hc
  exact Run.events_eq hrun

namespace History

variable {h : List (Entry A)} {c c' : Chain A}

/-- The event of a call names the identifier it has just taken. -/
theorem minted_objectId (hc : History h c) {call : Call A} {out : Option (Obj A)}
    (he : BookMarket.exec c call = .ok (c', out)) {ev : NFTMinted A}
    (hm : Entry.minted ⟨c.ctx.sender, call, out⟩ = some ev) : ev.objectId = (objectNew c.ctx).1 := by
  obtain ⟨_, _, _, _, nft, hcall, hout, -, -⟩ := Entry.minted_eq_some.1 hm
  obtain ⟨nft', -, hout', -⟩ := (hc.effect he).mint_inv hcall
  exact congrArg Obj.id (Option.some.inj (hout.symm.trans hout'))

/-- **No two events are about the same NFT.** -/
theorem nodup_events (hc : History h c) : (c.events.map NFTMinted.objectId).Nodup := by
  rw [hc.events_eq]
  refine contentsRule (I := fun h _ => ((h.filterMap Entry.minted).map NFTMinted.objectId).Nodup)
    ?_ ?_ ?_ hc
  · exact List.nodup_nil
  · intro h o o' hi _
    exact hi
  · intro h call out c c' hc hi he
    rw [List.filterMap_append, List.map_append]
    cases hm : Entry.minted ⟨c.ctx.sender, call, out⟩ with
    | none => simpa [hm] using hi
    | some ev =>
      -- the identifier is fresh
      have hfresh : ev.objectId ∉ (h.filterMap Entry.minted).map NFTMinted.objectId := by
        intro hmem
        obtain ⟨ev', hev', hid⟩ := List.mem_map.1 hmem
        obtain ⟨e, he', hme⟩ := List.mem_filterMap.1 hev'
        obtain ⟨_, _, _, _, nft, -, hout, -, -⟩ := Entry.minted_eq_some.1 hme
        have hused := (hc.used_of_log e he').1 _ hout
        rw [hid, hc.minted_objectId he hm] at hused
        exact not_used_objectNew c.ctx hused
      rw [List.filterMap_cons_some hm, List.filterMap_nil, List.map_singleton,
        List.nodup_append]
      refine ⟨hi, List.nodup_singleton _, fun id hid id' hid' heq => hfresh ?_⟩
      rwa [← List.mem_singleton.1 hid', ← heq]

/-- **Every NFT there is has its event**, with its author and its title. -/
theorem event_of_item (hc : History h c) {id : A} {nft : BookNFT A}
    (hi : itemAt c.objects id = some (.bookNFT nft)) : ⟨id, nft.author, nft.title⟩ ∈ c.events := by
  rw [hc.events_eq]
  refine contentsRule (I := fun h o => ∀ id nft, itemAt o id = some (.bookNFT nft) →
    ⟨id, nft.author, nft.title⟩ ∈ h.filterMap Entry.minted) ?_ ?_ ?_ hc id nft hi
  · intro id nft hi
    cases hi
  · intro h o o' hi heq id nft hn
    exact hi id nft (heq ▸ hn)
  · intro h call out c c' hc hi he id nft hn
    rw [List.filterMap_append, List.mem_append]
    rcases (hc.reshape he).nft_inv hn with ⟨hold, -, -⟩ | ⟨old, d, hold, rfl, hnew⟩ |
      ⟨rfl, title, description, content, url, rfl, hnew⟩
    · exact Or.inl (hi id nft hold)
    · -- an update leaves author and title as they are
      obtain ⟨s, -, rfl⟩ := updateDescription_eq_ok hnew
      exact Or.inl (hi id old hold)
    · obtain ⟨minted, hm, rfl, -⟩ := (hc.effect he).mint_inv rfl
      cases hm.symm.trans hnew
      refine Or.inr (List.mem_filterMap.2 ⟨_, List.mem_singleton.2 rfl, ?_⟩)
      exact Entry.minted_eq_some.2 ⟨_, _, _, _, nft, rfl, rfl, (newNft_eq_ok hnew).2.1, rfl⟩

/-- What a mint has just created is alive. -/
theorem live_of_minted (hc : History h c) {call : Call A} {out : Option (Obj A)}
    (he : BookMarket.exec c call = .ok (c', out)) {ev : NFTMinted A}
    (hm : Entry.minted ⟨c.ctx.sender, call, out⟩ = some ev) :
    ∃ nft, Live c'.objects ev.objectId nft := by
  obtain ⟨_, _, _, _, _, hcall, -, -, -⟩ := Entry.minted_eq_some.1 hm
  obtain ⟨nft, -, -, hw⟩ := (hc.effect he).mint_inv hcall
  refine ⟨nft, Or.inl ⟨.address c.ctx.sender, ?_⟩⟩
  rw [hc.minted_objectId he hm, freeAt_worldOf, hw, World.free_setFree_self]

end History

/-! ## The NFTs that ever were -/

/-- The NFT `id` was alive at some point of the run. -/
def EverLive (es : List (Event A)) (id : A) : Prop :=
  ∃ es₁ es₂ c nft, es = es₁ ++ es₂ ∧ Run Step genesis es₁ c ∧ Live c.objects id nft

/-- **Events and NFTs correspond**: there is an event for every NFT that ever was, and
for no other. -/
theorem Run.everLive_iff {es : List (Event A)} {c : Chain A} (hrun : Run Step genesis es c)
    (id : A) : (∃ ev ∈ c.events, ev.objectId = id) ↔ EverLive es id := by
  constructor
  · rintro ⟨ev, hev, rfl⟩
    -- look for the call that has emitted the event
    refine hrun.historyInvariant (I := fun es c => ∀ ev ∈ c.events, EverLive es ev.objectId)
      ?_ ?_ ev hev
    · intro ev hev
      exact (List.not_mem_nil hev).elim
    · intro es c e c' hrun hi hs ev hev
      rw [hs.events, List.mem_append] at hev
      rcases hev with hev | hev
      · obtain ⟨es₁, es₂, c₁, nft, rfl, hrun₁, hlive⟩ := hi ev hev
        exact ⟨es₁, es₂ ++ [e], c₁, nft, by simp, hrun₁, hlive⟩
      · cases hs with
        | @call _ call out hr he =>
          have hm : Entry.minted ⟨c.ctx.sender, call, out⟩ = some ev := by
            simpa [calls] using hev
          obtain ⟨nft, hlive⟩ := History.live_of_minted ⟨es, hrun, rfl⟩ he hm
          exact ⟨_, [], c', nft, by simp, hrun.snoc (.call hr he), hlive⟩
        | start => simp [calls] at hev
        | finish => simp [calls] at hev
  · rintro ⟨es₁, es₂, c₁, nft, rfl, hrun₁, hlive⟩
    have hc₁ : History (calls es₁) c₁ := ⟨es₁, hrun₁, rfl⟩
    have hev := hc₁.event_of_item (hlive.itemAt hc₁)
    refine ⟨⟨id, nft.author, nft.title⟩, ?_, rfl⟩
    -- no event is ever lost
    rw [Run.events_eq hrun₁] at hev
    rw [Run.events_eq hrun, calls, List.filterMap_append, List.filterMap_append]
    exact List.mem_append_left _ hev

theorem run_append_of_error {c : Chain A} {txs : List (Tx A)} {tx : Tx A} {e : Abort}
    (he : execTx (run c txs).1 tx = .error e) : run c (txs ++ [tx]) = run c txs := by
  induction txs generalizing c with
  | nil => exact run_cons_of_error he []
  | cons tx' txs ih =>
    simp only [run, List.cons_append] at he ⊢
    rw [ih he]

/-- **Minting accepts exactly well-formed text and its events are faithful.**  The
call succeeds, in any state, if and only if the three texts are well-formed UTF-8 and
the url is ASCII.  In every run, of whatever calls by whomever: there is one event for
each NFT that ever was, and no other; as long as the NFT is alive, the event has its
author and its title; and its texts are well-formed.  A transaction that fails, in
particular one with a mint that does, leaves no trace. -/
theorem minting :
    (∀ (c : Chain A) (title description content url : List UInt8),
      Succeeds c (.mintToSender title description content url) ↔
        WellFormedUtf8 title ∧ WellFormedUtf8 description ∧ WellFormedUtf8 content ∧
          ∀ b ∈ url, b ≤ 0x7F) ∧
    (∀ {es : List (Event A)} {c : Chain A}, Run Step genesis es c →
      c.events = (calls es).filterMap Entry.minted ∧
      (c.events.map NFTMinted.objectId).Nodup ∧
      (∀ id, (∃ ev ∈ c.events, ev.objectId = id) ↔ EverLive es id) ∧
      ∀ {id nft}, Live c.objects id nft →
        (∀ ev ∈ c.events, ev.objectId = id → ev.creator = nft.author ∧ ev.name = nft.title) ∧
        WellFormedUtf8 nft.title.bytes ∧ WellFormedUtf8 nft.description.bytes ∧
        WellFormedUtf8 nft.content.bytes) ∧
    ∀ {txs : List (Tx A)} {tx : Tx A} {e : Abort},
      execTx (run genesis txs).1 tx = .error e → run genesis (txs ++ [tx]) = run genesis txs := by
  refine ⟨mint_succeeds_iff, ?_, run_append_of_error⟩
  intro es c hrun
  have hc : History (calls es) c := ⟨es, hrun, rfl⟩
  refine ⟨Run.events_eq hrun, hc.nodup_events, Run.everLive_iff hrun, ?_⟩
  intro id nft hlive
  refine ⟨?_, (internalCheckUtf8_iff _).1 nft.title.wellFormed,
    (internalCheckUtf8_iff _).1 nft.description.wellFormed,
    (internalCheckUtf8_iff _).1 nft.content.wellFormed⟩
  intro ev hev hid
  -- the event of the NFT is the only one with its identifier
  obtain rfl := List.inj_on_of_nodup_map hc.nodup_events hev
    (hc.event_of_item (hlive.itemAt hc)) hid
  exact ⟨rfl, rfl⟩

/-- Two books were minted by user 1; the first has been burned, and the second, which
user 2 has now, is still what its event says.  A title that is no UTF-8 is refused. -/
theorem minting_oneBook :
    (run (genesis : Chain Addr) oneBook).1.events.map NFTMinted.objectId =
      [.derived 2 0, .derived 2 1] ∧
    (∃ nft, Live (run genesis oneBook).1.objects (.derived 2 1) nft ∧
      (∀ ev ∈ (run (genesis : Chain Addr) oneBook).1.events, ev.objectId = .derived 2 1 →
        ev.creator = nft.author ∧ ev.name = nft.title) ∧
      WellFormedUtf8 nft.description.bytes) ∧
    ¬ Succeeds (run (genesis : Chain Addr) oneBook).1 (.mintToSender [0xFF] [] [] []) := by
  obtain ⟨es, hrun, -⟩ := (run_history oneBook).1
  refine ⟨by decide +kernel, ?_, ?_⟩
  · have hf : freeAt (run genesis oneBook).1.objects (.derived 2 1) =
        some (.address (.user 2), .bookNFT ⟨⟨[69], by decide⟩, .user 1, ⟨[73], by decide⟩,
          ⟨[71], by decide⟩, ⟨⟨[72], by decide⟩⟩⟩) := by
      decide +kernel
    have hlive : Live (run genesis oneBook).1.objects (.derived 2 1) _ := Or.inl ⟨_, hf⟩
    obtain ⟨hev, -, hdesc, -⟩ := (minting.2.1 hrun).2.2.2 hlive
    exact ⟨_, hlive, hev, hdesc⟩
  · rw [minting.1, ← internalCheckUtf8_iff]
    rintro ⟨htitle, -⟩
    revert htitle
    decide

end BookMarket

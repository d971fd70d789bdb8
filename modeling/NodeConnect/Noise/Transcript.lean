import NodeConnect.Lib.HashChain
import NodeConnect.Noise.Frames

/-! The transcript of a party: the items of its running digest, each either plain, or a
ciphertext that the party sealed or opened. Where nobody forges a ciphertext and the
hash has no collision, what one party opened the other one sealed, at the same place and
after the same items. -/
namespace NodeConnect.Noise
open Lib HashChain Fallible

variable {Point Key : Type}

inductive Entry where
  | plain (item : Bytes)
  | mine (ciphertext plaintext : Bytes)
  | theirs (ciphertext plaintext : Bytes)
  deriving DecidableEq

namespace Entry

def item : Entry → Bytes
  | plain item => item
  | mine ciphertext _ => ciphertext
  | theirs ciphertext _ => ciphertext

end Entry

section

variable (suite : Suite Point Key)

def digestOf (start : Bytes) (entries : List Entry) : Block :=
  chain suite.sha256 Subtype.val start (entries.map Entry.item)

theorem digestOf_snoc (start : Bytes) (entries : List Entry) (entry : Entry) :
    digestOf suite start (entries ++ [entry]) = suite.sha256 ((digestOf suite start entries).val ++ entry.item) := by
  rw [digestOf,List.map_append]
  exact chain_snoc _ _ _ _ _

/-- The calls of the state `s` are those of a party whose transcript is `entries`. -/
structure Tracks (start : Bytes) (entries : List Entry) (s : SymmetricState) : Prop where
  digest : s.handshakeDigest = digestOf suite start entries
  hashed : Hashed suite.sha256 Subtype.val (fun input => .hash input ∈ s.calls) start (entries.map Entry.item)
  sealed : ∀ key nonce ad plaintext, .sealed key nonce ad plaintext ∈ s.calls →
    ∃ before, before ++ [.mine (suite.aeadSeal key nonce ad plaintext) plaintext] <+: entries ∧
      ad = (digestOf suite start before).val
  opened : ∀ before ciphertext plaintext, before ++ [.theirs ciphertext plaintext] <+: entries →
    ∃ key nonce, .opened key nonce (digestOf suite start before).val ciphertext plaintext ∈ s.calls ∧
      suite.aeadOpen key nonce (digestOf suite start before).val ciphertext = some plaintext
  long : ∀ entry ∈ entries, (∀ ciphertext plaintext, entry ≠ .theirs ciphertext plaintext) →
    macSize ≤ entry.item.length

variable {suite} {start : Bytes} {entries : List Entry} {s s' : SymmetricState}

theorem Tracks.quiet (tracks : Tracks suite start entries s) (digest : s'.handshakeDigest = s.handshakeDigest)
    (calls : s.calls <+: s'.calls)
    (nothing : ∀ key nonce ad plaintext, .sealed key nonce ad plaintext ∈ s'.calls →
      .sealed key nonce ad plaintext ∈ s.calls) : Tracks suite start entries s' where
  digest := digest.trans tracks.digest
  hashed := tracks.hashed.mono fun _ known => calls.subset known
  sealed := fun key nonce ad plaintext called => tracks.sealed key nonce ad plaintext (nothing _ _ _ _ called)
  opened := by
    intro before ciphertext plaintext within
    obtain ⟨key,nonce,called,succeeded⟩ := tracks.opened before ciphertext plaintext within
    exact ⟨key,nonce,calls.subset called,succeeded⟩
  long := tracks.long

theorem Tracks.snoc (tracks : Tracks suite start entries s) (entry : Entry)
    (digest : s'.handshakeDigest = suite.sha256 (s.handshakeDigest.val ++ entry.item)) (calls : s.calls <+: s'.calls)
    (hashed : .hash (s.handshakeDigest.val ++ entry.item) ∈ s'.calls)
    (new : ∀ key nonce ad plaintext, .sealed key nonce ad plaintext ∈ s'.calls →
      .sealed key nonce ad plaintext ∈ s.calls ∨
      entry = .mine (suite.aeadSeal key nonce ad plaintext) plaintext ∧ ad = s.handshakeDigest.val)
    (opened : ∀ ciphertext plaintext, entry = .theirs ciphertext plaintext →
      ∃ key nonce, .opened key nonce s.handshakeDigest.val ciphertext plaintext ∈ s'.calls ∧
        suite.aeadOpen key nonce s.handshakeDigest.val ciphertext = some plaintext)
    (long : (∀ ciphertext plaintext, entry ≠ .theirs ciphertext plaintext) → macSize ≤ entry.item.length) :
    Tracks suite start (entries ++ [entry]) s' where
  digest := by rw [digest,tracks.digest,digestOf_snoc]
  hashed := by
    rw [List.map_append]
    refine (tracks.hashed.mono fun _ known => calls.subset known).snoc ?_
    rw [tracks.digest] at hashed
    exact hashed
  sealed := by
    intro key nonce ad plaintext called
    rcases new key nonce ad plaintext called with earlier | ⟨rfl,rfl⟩
    · obtain ⟨before,within,ad_eq⟩ := tracks.sealed key nonce ad plaintext earlier
      exact ⟨before,within.trans (List.prefix_append _ _),ad_eq⟩
    · exact ⟨entries,List.prefix_refl _,congrArg Subtype.val tracks.digest⟩
  opened := by
    intro before ciphertext plaintext within
    rcases List.prefix_concat_iff.mp within with whole | earlier
    · obtain ⟨rfl,same⟩ := List.append_inj' whole rfl
      obtain ⟨key,nonce,called⟩ := opened ciphertext plaintext (List.cons.inj same).1.symm
      rw [tracks.digest] at called
      exact ⟨key,nonce,called⟩
    · obtain ⟨key,nonce,called,succeeded⟩ := tracks.opened before ciphertext plaintext earlier
      exact ⟨key,nonce,calls.subset called,succeeded⟩
  long := by
    intro other within notTheirs
    rcases List.mem_append.mp within with earlier | last
    · exact tracks.long other earlier notTheirs
    · obtain rfl := List.mem_singleton.mp last
      exact long notTheirs

theorem mem_bumpNonce {c : CipherState} {call : Call} (called : call ∈ (c.bumpNonce suite).calls) :
    call ∈ c.calls ∨ ∃ key, call = .install key := by
  dsimp only [CipherState.bumpNonce] at called
  split_ifs at called
  · rcases List.mem_append.mp called with earlier | last
    · exact .inl earlier
    · exact .inr ⟨_,List.mem_singleton.mp last⟩
  · exact .inl called

theorem Tracks.mixHash (tracks : Tracks suite start entries s) (data : Bytes) (long : macSize ≤ data.length) :
    Tracks suite start (entries ++ [.plain data]) (s.mixHash suite data) := by
  refine tracks.snoc (.plain data) rfl (mixHash_calls suite s data) ?_ ?_ nofun fun _ => long
  · exact List.mem_append_right _ (List.mem_singleton.mpr rfl)
  · intro key nonce ad plaintext called
    rcases List.mem_append.mp called with earlier | last
    · exact .inl earlier
    · cases List.mem_singleton.mp last

theorem Tracks.mixKey (tracks : Tracks suite start entries s) (input : Bytes) :
    Tracks suite start entries (s.mixKey suite input) := by
  refine tracks.quiet rfl (List.prefix_append _ _) ?_
  intro key nonce ad plaintext called
  rcases List.mem_append.mp called with earlier | last
  · exact earlier
  · cases List.mem_singleton.mp last

theorem mem_logged {call last : Call} {data : Bytes}
    (called : call ∈ (SymmetricState.mixHash suite
      {s with toCipherState := (s.toCipherState.log last).bumpNonce suite} data).calls) :
    call ∈ s.calls ∨ call = last ∨ (∃ key, call = .install key) ∨ ∃ input, call = .hash input := by
  rcases List.mem_append.mp called with earlier | final
  · rcases mem_bumpNonce earlier with logged | installed
    · rcases List.mem_append.mp logged with before | now
      · exact .inl before
      · exact .inr (.inl (List.mem_singleton.mp now))
    · exact .inr (.inr (.inl installed))
  · exact .inr (.inr (.inr ⟨_,List.mem_singleton.mp final⟩))

theorem last_mem_logged (last : Call) (data : Bytes) :
    last ∈ (SymmetricState.mixHash suite
      {s with toCipherState := (s.toCipherState.log last).bumpNonce suite} data).calls := by
  have logged : last ∈ (s.toCipherState.log last).calls := List.mem_append_right _ (List.mem_singleton.mpr rfl)
  exact List.mem_append_left _ ((bumpNonce_calls suite _).subset logged)

theorem Tracks.encryptAndHash (lawful : suite.Lawful) (tracks : Tracks suite start entries s) (plaintext : Bytes) :
    Tracks suite start (entries ++ [.mine (s.encryptAndHash suite plaintext).1 plaintext])
      (s.encryptAndHash suite plaintext).2 := by
  refine tracks.snoc _ ?_ (encryptAndHash_calls suite s plaintext) ?_ ?_ nofun ?_
  · exact congrArg (fun digest : Block => suite.sha256 (digest.val ++ _)) rfl
  · exact List.mem_append_right _ (List.mem_singleton.mpr rfl)
  · intro key nonce ad other called
    rcases mem_logged called with earlier | last | ⟨_,installed⟩ | ⟨_,hashed⟩
    · exact .inl earlier
    · cases last
      exact .inr ⟨rfl,rfl⟩
    · cases installed
    · cases hashed
  · intro _
    refine Nat.le_trans ?_ (Nat.le_of_eq (lawful.seal_length _ _ _ plaintext).symm)
    exact Nat.le_add_left _ _

theorem Tracks.decryptAndHash (tracks : Tracks suite start entries s) (ciphertext : Bytes) :
    match s.decryptAndHash suite ciphertext with
    | (some plaintext,after) => Tracks suite start (entries ++ [.theirs ciphertext plaintext]) after
    | (none,after) => Tracks suite start entries after := by
  unfold SymmetricState.decryptAndHash CipherState.decrypt
  cases outcome : suite.aeadOpen s.secretKey s.nonce s.handshakeDigest.val ciphertext with
  | none =>
    refine tracks.quiet rfl (bumpNonce_calls suite s.toCipherState) ?_
    intro key nonce ad plaintext called
    rcases mem_bumpNonce called with earlier | ⟨_,installed⟩
    · exact earlier
    · cases installed
  | some plaintext =>
    refine tracks.snoc _ rfl (logged_calls suite s _ _) (List.mem_append_right _ (List.mem_singleton.mpr rfl)) ?_ ?_ ?_
    · intro key nonce ad other called
      rcases mem_logged called with earlier | last | ⟨_,installed⟩ | ⟨_,hashed⟩
      · exact .inl earlier
      · cases last
      · cases installed
      · cases hashed
    · intro other plain same
      cases same
      exact ⟨_,_,last_mem_logged _ _,outcome⟩
    · exact fun notTheirs => absurd rfl (notTheirs ciphertext plaintext)

end

def Grows (suite : Suite Point Key) (p q : Party Point Key) : Prop :=
  ∀ start entries, Tracks suite start entries p.toSymmetricState →
    ∃ added, Tracks suite start (entries ++ added) q.toSymmetricState

theorem Grows.of_eq {suite : Suite Point Key} {p q : Party Point Key} (same : q.toSymmetricState = p.toSymmetricState) :
    Grows suite p q := by
  intro start entries tracks
  refine ⟨[],?_⟩
  rw [List.append_nil,same]
  exact tracks

theorem grows_keptBy {suite : Suite Point Key} (lawful : suite.Lawful) : KeptBy suite (Grows suite) where
  refl := fun _ => .of_eq rfl
  trans := by
    intro p q t first second start entries tracks
    obtain ⟨added,tracks⟩ := first start entries tracks
    obtain ⟨more,tracks⟩ := second start _ tracks
    exact ⟨added ++ more,List.append_assoc entries added more ▸ tracks⟩
  mixHash := by
    intro point p start entries tracks
    exact ⟨_,tracks.mixHash _ (by rw [lawful.serialize_length]; decide)⟩
  mixKey := by
    intro input p start entries tracks
    refine ⟨[],?_⟩
    rw [List.append_nil]
    exact tracks.mixKey input
  encryptAndHash := fun plaintext p start entries tracks => ⟨_,tracks.encryptAndHash lawful plaintext⟩
  decryptAndHash := by
    intro ciphertext p start entries tracks
    have after := tracks.decryptAndHash ciphertext
    unfold Handshake.decryptAndHash
    split
    next plaintext symmetric decrypted =>
      rw [decrypted] at after
      exact ⟨_,after⟩
    next symmetric decrypted =>
      rw [decrypted] at after
      exact ⟨[],by rwa [List.append_nil]⟩
  newEphemeral := by
    intro p
    unfold Handshake.newEphemeral
    split <;> exact .of_eq rfl
  remoteEphemeral := fun _ _ => .of_eq rfl

theorem acts_grows [AddCommGroup Point] {suite : Suite Point Key} (lawful : suite.Lawful)
    (patterns : List MessagePattern) : Keeps (Grows suite) (Handshake.acts suite patterns) := by
  refine (grows_keptBy lawful).acts ?_ ?_ ?_ (fun _ _ => .of_eq rfl) patterns fun _ _ _ _ _ => .of_eq rfl
  · intro k p
    unfold Handshake.readBytes
    split <;> exact .of_eq rfl
  · intro bytes p
    unfold Handshake.writeBytes
    split <;> exact .of_eq rfl
  · intro version actNum p
    unfold Handshake.checkVersion
    rw [get_bind]
    split_ifs <;> exact .of_eq rfl

def Call.hashed? : Call → Option Bytes
  | .hash input => some input
  | _ => none

/-- What a call that sealed was given, and the ciphertext. -/
def Call.sealed? (suite : Suite Point Key) : Call → Option (Block × Nat × Bytes × Bytes)
  | .sealed key nonce ad plaintext => some (key,nonce,ad,suite.aeadSeal key nonce ad plaintext)
  | _ => none

def Call.opened? : Call → Option (Block × Nat × Bytes × Bytes)
  | .opened key nonce ad ciphertext _ => some (key,nonce,ad,ciphertext)
  | _ => none

/-- The ideal AEAD opens only what was sealed by one of the parties under the same key,
nonce and associated data, and the ideal hash has no collision. -/
structure Ideal (suite : Suite Point Key) (calls : List Call) : Prop where
  unforged : ∀ opened ∈ calls.filterMap Call.opened?, opened ∈ calls.filterMap (Call.sealed? suite)
  collisionFree : ∀ first ∈ calls.filterMap Call.hashed?, ∀ second ∈ calls.filterMap Call.hashed?,
    suite.sha256 first = suite.sha256 second → first = second

instance (suite : Suite Point Key) (calls : List Call) : Decidable (Ideal suite calls) :=
  decidable_of_iff ((∀ opened ∈ calls.filterMap Call.opened?, opened ∈ calls.filterMap (Call.sealed? suite)) ∧
      ∀ first ∈ calls.filterMap Call.hashed?, ∀ second ∈ calls.filterMap Call.hashed?,
        suite.sha256 first = suite.sha256 second → first = second)
    ⟨fun ⟨unforged,collisionFree⟩ => ⟨unforged,collisionFree⟩,
      fun ⟨unforged,collisionFree⟩ => ⟨unforged,collisionFree⟩⟩

section Aligned

variable {suite : Suite Point Key} {start start' : Bytes} {entries entries' : List Entry} {s s' : SymmetricState}

theorem Ideal.symm {first second : List Call} (ideal : Ideal suite (first ++ second)) : Ideal suite (second ++ first) := by
  have swap {β : Type} (f : Call → Option β) (value : β) (within : value ∈ (second ++ first).filterMap f) :
      value ∈ (first ++ second).filterMap f := by
    rw [List.filterMap_append,List.mem_append] at within ⊢
    exact within.symm
  have swap' {β : Type} (f : Call → Option β) (value : β) (within : value ∈ (first ++ second).filterMap f) :
      value ∈ (second ++ first).filterMap f := by
    rw [List.filterMap_append,List.mem_append] at within ⊢
    exact within.symm
  exact ⟨fun opened within => swap' _ _ (ideal.unforged opened (swap _ _ within)),
    fun first within second within' => ideal.collisionFree first (swap _ _ within) second (swap _ _ within')⟩

/-- An opened ciphertext was sealed from the same plaintext. -/
theorem Ideal.seal_of_opened (lawful : suite.Lawful) {calls : List Call} (ideal : Ideal suite calls) {key : Block}
    {nonce : Nat} {ad ciphertext plaintext : Bytes} (called : .opened key nonce ad ciphertext plaintext ∈ calls)
    (succeeded : suite.aeadOpen key nonce ad ciphertext = some plaintext) :
    .sealed key nonce ad plaintext ∈ calls ∧ suite.aeadSeal key nonce ad plaintext = ciphertext := by
  have within := ideal.unforged (key,nonce,ad,ciphertext) (List.mem_filterMap.mpr ⟨_,called,rfl⟩)
  obtain ⟨call,calledBefore,given⟩ := List.mem_filterMap.mp within
  cases call with
  | sealed key' nonce' ad' plaintext' =>
    cases given
    rw [lawful.open_seal] at succeeded
    cases succeeded
    exact ⟨calledBefore,rfl⟩
  | _ => cases given

theorem Tracks.long_of_ideal (lawful : suite.Lawful) (tracks : Tracks suite start entries s) {calls : List Call}
    (ideal : Ideal suite calls) (known : s.calls ⊆ calls) : ∀ item ∈ entries.map Entry.item, macSize ≤ item.length := by
  intro item within
  obtain ⟨entry,member,rfl⟩ := List.mem_map.mp within
  cases entry with
  | theirs ciphertext plaintext =>
    obtain ⟨before,after,rfl⟩ := List.append_of_mem member
    obtain ⟨key,nonce,called,succeeded⟩ := tracks.opened before ciphertext plaintext ⟨after,by simp⟩
    have sealing := (ideal.seal_of_opened lawful (known called) succeeded).2
    change macSize ≤ ciphertext.length
    rw [← sealing,lawful.seal_length]
    exact Nat.le_add_left _ _
  | plain item => exact tracks.long _ member nofun
  | mine ciphertext plaintext => exact tracks.long _ member nofun

theorem Tracks.hashed_of_known (tracks : Tracks suite start entries s) {calls : List Call} (known : s.calls ⊆ calls) :
    Hashed suite.sha256 Subtype.val (fun input => input ∈ calls.filterMap Call.hashed?) start (entries.map Entry.item) :=
  tracks.hashed.mono fun _ called => List.mem_filterMap.mpr ⟨_,known called,rfl⟩

/-- Equal digests come from equal transcripts. -/
theorem Tracks.items_eq (lawful : suite.Lawful) (tracks : Tracks suite start entries s)
    (tracks' : Tracks suite start' entries' s') {calls : List Call} (ideal : Ideal suite calls) (known : s.calls ⊆ calls)
    (known' : s'.calls ⊆ calls) (short : start.length < 32 + macSize) (short' : start'.length < 32 + macSize)
    {before before' : List Entry} (within : before <+: entries) (within' : before' <+: entries')
    (same : digestOf suite start before = digestOf suite start' before') :
    start = start' ∧ before.map Entry.item = before'.map Entry.item := by
  have long := tracks.long_of_ideal lawful ideal known
  have long' := tracks'.long_of_ideal lawful ideal known'
  refine chain_injective (fun input => input ∈ calls.filterMap Call.hashed?) 32 macSize
    (fun digest => digest.property) (fun _ _ => Subtype.ext) ?_ ((tracks.hashed_of_known known).shorten (within.map _))
    ((tracks'.hashed_of_known known').shorten (within'.map _)) short short' ?_ ?_ same
  · exact fun first second member member' => ideal.collisionFree first member second member'
  · exact fun item member => long item ((within.map _).subset member)
  · exact fun item member => long' item ((within'.map _).subset member)

theorem getElem?_of_begins {α : Type} {before : List α} {last : α} {whole : List α} (within : before ++ [last] <+: whole) :
    whole[before.length]? = some last := by
  obtain ⟨rest,rfl⟩ := within
  simp

/-- What one party opened, the other one sealed at the same place. -/
theorem Tracks.aligned (lawful : suite.Lawful) (tracks : Tracks suite start entries s)
    (tracks' : Tracks suite start' entries' s') (ideal : Ideal suite (s.calls ++ s'.calls))
    (short : start.length < 32 + macSize) (short' : start'.length < 32 + macSize) {k : Nat} {ciphertext plaintext : Bytes}
    (here : entries[k]? = some (.theirs ciphertext plaintext)) :
    start = start' ∧ entries'[k]? = some (.mine ciphertext plaintext) ∧
      (entries.take (k + 1)).map Entry.item = (entries'.take (k + 1)).map Entry.item := by
  have known : s.calls ⊆ s.calls ++ s'.calls := List.subset_append_left _ _
  have known' : s'.calls ⊆ s.calls ++ s'.calls := List.subset_append_right _ _
  obtain ⟨inside,entry⟩ := List.getElem?_eq_some_iff.mp here
  have upTo : entries.take k ++ [.theirs ciphertext plaintext] = entries.take (k + 1) := by
    rw [← entry,List.take_append_getElem]
  have within : entries.take k ++ [.theirs ciphertext plaintext] <+: entries := upTo ▸ List.take_prefix _ _
  have beforeLength : (entries.take k).length = k := List.length_take_of_le (Nat.le_of_lt inside)
  obtain ⟨key,nonce,called,succeeded⟩ := tracks.opened _ ciphertext plaintext within
  obtain ⟨calledBefore,sealing⟩ := ideal.seal_of_opened lawful (known called) succeeded
  rcases List.mem_append.mp calledBefore with own | other
  · -- A party opens nothing at a place where it sealed.
    obtain ⟨before,within',digests⟩ := tracks.sealed _ _ _ _ own
    have items := (tracks.items_eq lawful tracks ideal known known short short (List.take_prefix _ _)
      ((List.prefix_append _ _).trans within') (Subtype.ext digests)).2
    have lengths := congrArg List.length items
    rw [List.length_map,List.length_map,beforeLength] at lengths
    have there := getElem?_of_begins within'
    rw [← lengths,here] at there
    cases there
  · obtain ⟨before,within',digests⟩ := tracks'.sealed _ _ _ _ other
    rw [sealing] at within'
    obtain ⟨starts,items⟩ := tracks.items_eq lawful tracks' ideal known known' short short' (List.take_prefix k _)
      ((List.prefix_append _ _).trans within') (Subtype.ext digests)
    have lengths := congrArg List.length items
    rw [List.length_map,List.length_map,beforeLength] at lengths
    have there := getElem?_of_begins within'
    rw [← lengths] at there
    have upTo' : entries'.take (k + 1) = before ++ [.mine ciphertext plaintext] := by
      obtain ⟨rest,rfl⟩ := within'
      rw [lengths,List.take_append_of_le_length (by simp)]
      simp
    refine ⟨starts,there,?_⟩
    rw [← upTo,upTo',List.map_append,List.map_append,items]
    rfl

end Aligned

end NodeConnect.Noise

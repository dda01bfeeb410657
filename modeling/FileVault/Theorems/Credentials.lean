import FileVault.Core.Vfs
import FileVault.Theorems.PanicFree

/-!
# The credential search of `open`

`FileVaultLayer::open` skips what is not a password, returns the volume of the first
password that unlocks, and otherwise reports the last error. Every attempt runs over
a cursor view of its own, so a password unlocks or not whatever was tried before it.
What no password has a say in is the metadata: where decrypting it panics, `open`
panics at the first password.
-/

namespace FileVault

open Lib

/-! ## Unlocking panics for every password or for none -/

theorem openVolume_ne_panicked (crates : Crates) (password : String) (header : VolumeHeader)
    {plaintext : Bytes} (reader : Reader) (hlen : plaintext.length ≤ isizeMax) :
    openVolume crates password header plaintext reader ≠ panicked := by
  unfold openVolume
  have hextract := EncryptionContext.extract_ne_panicked crates plaintext
  refine bind_ne_panicked hextract ?_
  intro context _
  refine bind_ne_panicked (LogicalVolumeInfo.extract_ne_panicked plaintext) ?_
  intro lv _
  refine bind_ne_panicked (okOr_ne_panicked _ _) ?_
  intro uuid _
  refine bind_ne_panicked ?_ fun keys _ => ?_
  · intro h
    obtain ⟨what, hstop⟩ := deriveVolumeKeys_error h
    simp at hstop
  · rw [resolveLvExtent_eq header lv hlen]
    exact ok_ne_panicked _

/-- The view delivers metadata that is ragged: reading it is not cut short by an I/O error. -/
def RaggedView (crates : Crates) (view : Reader) : Prop :=
  RaggedMetadata view.data ∧ ∀ e, loadVolume crates view ≠ fail (.io e)

theorem unlock_panicked_iff (crates : Crates) (view : Reader) (password : String) :
    unlockWithPassword crates view password = panicked ↔ RaggedView crates view := by
  unfold RaggedView
  rw [unlockWithPassword_eq, ← loadMetadata_panicked_iff crates]
  -- the password comes in once the metadata is there, and panics nothing
  rcases loadVolume_outcome crates view with ⟨reader, -, hload⟩ | ⟨e, -, -, hload⟩
  · cases hmetadata : loadMetadata crates view.data with
    | error stop =>
        rw [hmetadata] at hload
        rw [hload]
        simp only [error_bind, panicked, fail, ne_eq, Except.error.injEq]
        constructor
        · rintro rfl
          exact ⟨rfl, by simp⟩
        · intro h
          exact h.1
    | ok loaded =>
        obtain ⟨header, plaintext⟩ := loaded
        rw [hmetadata, ok_bind] at hload
        have rest := openVolume_ne_panicked crates password header reader
          (loadVolume_length hload)
        rw [hload]
        simp only [ok_bind, ok_ne_panicked, false_and, iff_false]
        exact rest
  · rw [hload]
    simp only [fail_bind, fail_ne_panicked, false_iff, not_and, not_forall, not_not]
    exact fun _ => ⟨e, rfl⟩

/-- A healthy view is ragged exactly when its image is. -/
theorem raggedView_healthy (crates : Crates) {view : Reader} (h : view.Healthy) :
    RaggedView crates view ↔ RaggedMetadata view.data := by
  unfold RaggedView
  constructor
  · exact And.left
  · intro ragged
    refine ⟨ragged, ?_⟩
    intro e
    obtain ⟨reader, -, hload⟩ := loadVolume_healthy crates h
    rw [hload, (loadMetadata_panicked_iff crates view.data).mpr ragged]
    simp [panicked, fail]

/-! ## The loop over the passwords -/

/-- The passwords among the credentials, in order. -/
def passwords {Other : Type} (creds : List (Credential Other)) : List String :=
  creds.filterMap fun
    | .password p => some p
    | .other _ => none

/-- What comes of the attempts of `open`, one after another: the volume of the first that gives
one, or else the error of the last. -/
theorem tryEach_outcome {Other : Type} (crates : Crates) (ioText : IoError → String)
    {view : Nat → Reader} (calm : ∀ n q, unlockWithPassword crates (view n) q ≠ panicked)
    (creds : List (Credential Other)) (lastErr : Option FileVaultError) :
    (∃ n q vol, (passwords creds)[n]? = some q ∧ unlockWithPassword crates (view n) q = .ok vol ∧
      (∀ m < n, ∀ r, (passwords creds)[m]? = some r →
        ∃ e, unlockWithPassword crates (view m) r = fail e) ∧
      FileVaultLayer.tryEach crates ioText view creds lastErr = .ok (.new vol)) ∨
    ((∀ n q, (passwords creds)[n]? = some q →
        ∃ e, unlockWithPassword crates (view n) q = fail e) ∧
      ∃ err : Option FileVaultError,
        FileVaultLayer.tryEach crates ioText view creds lastErr =
          .error (.error (err.elim FileVaultLayer.needCredentials (mapFvdeErr ioText))) ∧
        (passwords creds = [] → err = lastErr) ∧
        ∀ n q, (passwords creds)[n]? = some q → n + 1 = (passwords creds).length →
          ∃ e, err = some e ∧ unlockWithPassword crates (view n) q = fail e) := by
  induction creds generalizing view lastErr with
  | nil => exact .inr ⟨by simp [passwords], lastErr, rfl, fun _ => rfl, by simp [passwords]⟩
  | cons cred creds ih =>
      cases cred with
      | other c => exact ih calm lastErr
      | password p =>
          have cons : passwords (.password p :: creds) = p :: passwords creds := rfl
          rw [cons]
          cases hfirst : unlockWithPassword crates (view 0) p with
          | ok vol =>
              refine .inl ⟨0, p, vol, rfl, hfirst, fun m hm => absurd hm (Nat.not_lt_zero m), ?_⟩
              simp only [FileVaultLayer.tryEach, hfirst]
          | error stop =>
          cases stop with
          | panic => exact absurd hfirst (calm 0 p)
          | error e =>
              have step : FileVaultLayer.tryEach crates ioText view (.password p :: creds) lastErr =
                  FileVaultLayer.tryEach crates ioText (fun n => view (n + 1)) creds (some e) := by
                simp only [FileVaultLayer.tryEach, hfirst]
              rw [step]
              have calm' : ∀ n q, unlockWithPassword crates (view (n + 1)) q ≠ panicked :=
                fun n => calm (n + 1)
              rcases ih calm' (some e) with
                ⟨n, q, vol, hq, hvol, before, hopen⟩ | ⟨fails, err, hopen, none_left, last⟩
              · refine .inl ⟨n + 1, q, vol, hq, hvol, ?_, hopen⟩
                intro m hm r hr
                cases m with
                | zero =>
                    obtain rfl : p = r := by simpa using hr
                    exact ⟨e, hfirst⟩
                | succ m => exact before m (by omega) r hr
              · refine .inr ⟨?_, err, hopen, by simp, ?_⟩
                · intro n q hq
                  cases n with
                  | zero =>
                      obtain rfl : p = q := by simpa using hq
                      exact ⟨e, hfirst⟩
                  | succ n => exact fails n q hq
                · intro n q hq hlast
                  cases n with
                  | zero =>
                      obtain rfl : p = q := by simpa using hq
                      have nil : passwords creds = [] :=
                        List.eq_nil_of_length_eq_zero (by simpa using hlast)
                      exact ⟨e, none_left nil, hfirst⟩
                  | succ n => exact last n q hq (by simpa using hlast)

section

variable {Source Other : Type} (crates : Crates) (ioText : IoError → String)
  (sources : EncryptedSource Source) (layer : FileVaultLayer Source)

/-- One attempt of the loop. -/
def attempt (password : String) : Run FileVaultVolume :=
  unlockWithPassword crates (sources.sourceCursor layer.encrypted 0 layer.len) password

/-- The loop with everything but the passwords left out. -/
def tryPasswords : List String → Option FileVaultError → VfsRun FileVaultSource
  | [], lastErr => .error (.error (lastErr.elim FileVaultLayer.needCredentials (mapFvdeErr ioText)))
  | p :: rest, _ =>
      match attempt crates sources layer p with
      | .ok vol => .ok (.new vol)
      | .error (.error e) => tryPasswords rest (some e)
      | .error .panic => .error .panic

variable {crates ioText sources layer}

theorem tryEach_eq (creds : List (Credential Other)) (lastErr : Option FileVaultError) :
    FileVaultLayer.tryEach crates ioText
        (fun _ => sources.sourceCursor layer.encrypted 0 layer.len) creds lastErr =
      tryPasswords crates ioText sources layer (passwords creds) lastErr := by
  induction creds generalizing lastErr with
  | nil => rfl
  | cons cred creds ih =>
      cases cred with
      | other c => exact ih lastErr
      | password p =>
          show FileVaultLayer.tryEach crates ioText _ (.password p :: creds) lastErr =
            tryPasswords crates ioText sources layer (p :: passwords creds) lastErr
          simp only [FileVaultLayer.tryEach, tryPasswords, attempt]
          cases unlockWithPassword crates
              (sources.sourceCursor layer.encrypted 0 layer.len) p with
          | ok vol => rfl
          | error stop =>
              cases stop with
              | error e => exact ih (some e)
              | panic => rfl

/-- `open` only looks at the passwords. -/
theorem openLayer_eq (credentialsFor : EncryptionScheme → String → List (Credential Other)) :
    layer.openLayer crates ioText sources credentialsFor =
      tryPasswords crates ioText sources layer (passwords (credentialsFor .fileVault "")) none := by
  unfold FileVaultLayer.openLayer FileVaultLayer.openOver
  cases hcands : credentialsFor .fileVault "" with
  | nil => rfl
  | cons cred creds => exact tryEach_eq (cred :: creds) none

/-- The password unlocks the volume. -/
def Unlocks (crates : Crates) (sources : EncryptedSource Source) (layer : FileVaultLayer Source)
    (password : String) : Prop :=
  ∃ vol, attempt crates sources layer password = .ok vol

instance (password : String) : Decidable (Unlocks crates sources layer password) :=
  match h : attempt crates sources layer password with
  | .ok vol => .isTrue ⟨vol, h⟩
  | .error _ => .isFalse (by simp [Unlocks, h])

/-- Where no attempt panics, one that does not unlock fails. -/
theorem attempt_fails (calm : ∀ p, attempt crates sources layer p ≠ panicked) {p : String}
    (h : ¬ Unlocks crates sources layer p) : ∃ e, attempt crates sources layer p = fail e := by
  cases hattempt : attempt crates sources layer p with
  | ok vol => exact absurd ⟨vol, hattempt⟩ h
  | error stop =>
      cases stop with
      | error e => exact ⟨e, rfl⟩
      | panic => exact absurd hattempt (calm p)

/-- The loop returns a volume exactly when some password unlocks, and it is that of the
first. -/
theorem tryPasswords_ok_iff (calm : ∀ p, attempt crates sources layer p ≠ panicked)
    (ps : List String) (lastErr : Option FileVaultError) (source : FileVaultSource) :
    tryPasswords crates ioText sources layer ps lastErr = .ok source ↔
      ∃ p vol, ps.find? (fun p => decide (Unlocks crates sources layer p)) = some p ∧
        attempt crates sources layer p = .ok vol ∧ source = .new vol := by
  induction ps generalizing lastErr with
  | nil => simp [tryPasswords]
  | cons p ps ih =>
      by_cases hp : Unlocks crates sources layer p
      · rw [List.find?_cons_of_pos (by simpa using hp)]
        obtain ⟨vol, hvol⟩ := hp
        simp only [tryPasswords, hvol, Except.ok.injEq, Option.some.injEq]
        constructor
        · rintro rfl
          exact ⟨p, vol, rfl, hvol, rfl⟩
        · rintro ⟨q, vol', rfl, hvol', rfl⟩
          rw [Except.ok.inj (hvol.symm.trans hvol')]
      · obtain ⟨e, he⟩ := attempt_fails calm hp
        rw [List.find?_cons_of_neg (by simpa using hp), ← ih (some e)]
        simp only [tryPasswords, he, fail]

/-- When none unlocks, the error of the last of them is left. -/
theorem tryPasswords_failing {ps : List String}
    (h : ∀ p ∈ ps, ∃ e, attempt crates sources layer p = fail e)
    (lastErr : Option FileVaultError) {p : String} (hlast : ps.getLast? = some p) :
    ∃ e, attempt crates sources layer p = fail e ∧
      tryPasswords crates ioText sources layer ps lastErr =
        .error (.error (mapFvdeErr ioText e)) := by
  induction ps generalizing lastErr with
  | nil => simp at hlast
  | cons q ps ih =>
      obtain ⟨e, he⟩ := h q (by simp)
      -- whatever error was last, this one takes its place
      have step : tryPasswords crates ioText sources layer (q :: ps) lastErr =
          tryPasswords crates ioText sources layer ps (some e) := by
        simp only [tryPasswords, he, fail]
      rw [step]
      cases ps with
      | nil =>
          obtain rfl : q = p := by simpa using hlast
          exact ⟨e, he, rfl⟩
      | cons q' ps' =>
          exact ih (fun p hp => h p (List.mem_cons_of_mem _ hp)) (some e) (by simpa using hlast)

/-- Where every attempt panics, the first one does. -/
theorem tryPasswords_panicked (panics : ∀ p, attempt crates sources layer p = panicked)
    {ps : List String} (hps : ps ≠ []) (lastErr : Option FileVaultError) :
    tryPasswords crates ioText sources layer ps lastErr = .error .panic := by
  cases ps with
  | nil => exact absurd rfl hps
  | cons p ps => simp only [tryPasswords, panics, panicked]

/-! ## The search -/

/-- `open` with a fixed list of credentials on offer. -/
def openWith (crates : Crates) (ioText : IoError → String) (sources : EncryptedSource Source)
    (layer : FileVaultLayer Source) (creds : List (Credential Other)) : VfsRun FileVaultSource :=
  layer.openLayer crates ioText sources fun _ _ => creds

theorem openWith_eq (creds : List (Credential Other)) :
    openWith crates ioText sources layer creds =
      tryPasswords crates ioText sources layer (passwords creds) none :=
  openLayer_eq fun _ _ => creds

/-- What opens is the volume of the first password that unlocks. -/
theorem openWith_ok_iff (creds : List (Credential Other)) (source : FileVaultSource) :
    openWith crates ioText sources layer creds = .ok source ↔
      ∃ p vol, (passwords creds).find? (fun p => decide (Unlocks crates sources layer p)) =
        some p ∧ attempt crates sources layer p = .ok vol ∧ source = .new vol := by
  rw [openWith_eq]
  -- over a ragged view neither side holds
  by_cases ragged : RaggedView crates (sources.sourceCursor layer.encrypted 0 layer.len)
  · have panics (p : String) : attempt crates sources layer p = panicked :=
      (unlock_panicked_iff crates _ p).mpr ragged
    constructor
    · intro h
      by_cases hps : passwords creds = []
      · simp [hps, tryPasswords] at h
      · simp [tryPasswords_panicked panics hps] at h
    · rintro ⟨p, vol, -, hvol, -⟩
      simp [panics, panicked] at hvol
  · exact tryPasswords_ok_iff
      (fun p h => ragged ((unlock_panicked_iff crates _ p).mp h)) _ _ _

theorem openWith_succeeds_iff (creds : List (Credential Other)) :
    (∃ source, openWith crates ioText sources layer creds = .ok source) ↔
      ∃ p ∈ passwords creds, Unlocks crates sources layer p := by
  constructor
  · rintro ⟨source, h⟩
    obtain ⟨p, vol, hfind, hvol, -⟩ := (openWith_ok_iff creds source).mp h
    exact ⟨p, List.mem_of_find?_eq_some hfind, vol, hvol⟩
  · rintro ⟨p, hp, hunlocks⟩
    have found : ((passwords creds).find?
        (fun p => decide (Unlocks crates sources layer p))).isSome :=
      List.find?_isSome.mpr ⟨p, hp, by simpa using hunlocks⟩
    obtain ⟨q, hq⟩ := Option.isSome_iff_exists.mp found
    obtain ⟨vol, hvol⟩ : Unlocks crates sources layer q := by simpa using List.find?_some hq
    exact ⟨.new vol, (openWith_ok_iff creds _).mpr ⟨q, vol, hq, hvol, rfl⟩⟩

end

/-- The search does what a caller relies on: it succeeds when some password unlocks and
gives the volume of the first; otherwise it asks for credentials when there was no
password, and reports the error of the last one when there was. So credentials of other
kinds and passwords that fail do not change what is opened, and the order of the list
does not change whether anything is. -/
structure SearchesInOrder {Source Other : Type} (crates : Crates) (ioText : IoError → String)
    (sources : EncryptedSource Source) (layer : FileVaultLayer Source)
    (creds : List (Credential Other)) : Prop where
  succeeds_iff : (∃ source, openWith crates ioText sources layer creds = .ok source) ↔
    ∃ p ∈ passwords creds, Unlocks crates sources layer p
  first : ∀ pre p post vol, passwords creds = pre ++ p :: post →
    (∀ q ∈ pre, ¬ Unlocks crates sources layer q) → attempt crates sources layer p = .ok vol →
    openWith crates ioText sources layer creds = .ok (.new vol)
  needs_iff : (∀ p ∈ passwords creds, ¬ Unlocks crates sources layer p) →
    (openWith crates ioText sources layer creds = .error (.error FileVaultLayer.needCredentials) ↔
      passwords creds = [])
  last : (∀ p ∈ passwords creds, ¬ Unlocks crates sources layer p) →
    ∀ p, (passwords creds).getLast? = some p →
    ∃ e, attempt crates sources layer p = fail e ∧
      openWith crates ioText sources layer creds = .error (.error (mapFvdeErr ioText e))
  skip : ∀ pre c post, creds = pre ++ post →
    openWith crates ioText sources layer (pre ++ .other c :: post) =
      openWith crates ioText sources layer creds
  insert : ∀ pre q post source, creds = pre ++ post → ¬ Unlocks crates sources layer q →
    openWith crates ioText sources layer creds = .ok source →
    openWith crates ioText sources layer (pre ++ .password q :: post) = .ok source
  order : ∀ creds', creds.Perm creds' →
    ((∃ source, openWith crates ioText sources layer creds' = .ok source) ↔
      ∃ source, openWith crates ioText sources layer creds = .ok source)

section

variable {Source Other : Type} {crates : Crates} {ioText : IoError → String}
  {sources : EncryptedSource Source} {layer : FileVaultLayer Source}

theorem passwords_insert_other (pre : List (Credential Other)) (c : Other)
    (post : List (Credential Other)) :
    passwords (pre ++ .other c :: post) = passwords (pre ++ post) := by
  simp [passwords]

theorem passwords_insert_password (pre : List (Credential Other)) (q : String)
    (post : List (Credential Other)) :
    passwords (pre ++ .password q :: post) = passwords pre ++ q :: passwords post := by
  simp [passwords]

theorem openWith_insert {pre post : List (Credential Other)} {q : String}
    {source : FileVaultSource} (hq : ¬ Unlocks crates sources layer q)
    (h : openWith crates ioText sources layer (pre ++ post) = .ok source) :
    openWith crates ioText sources layer (pre ++ .password q :: post) = .ok source := by
  obtain ⟨p, vol, hfind, found⟩ := (openWith_ok_iff _ _).mp h
  refine (openWith_ok_iff _ _).mpr ⟨p, vol, ?_, found⟩
  -- the search for the first that unlocks passes over `q`
  have split : passwords (pre ++ post) = passwords pre ++ passwords post := by simp [passwords]
  rw [passwords_insert_password, List.find?_append, List.find?_cons_of_neg (by simpa using hq),
    ← List.find?_append, ← split, hfind]

theorem openWith_perm {creds creds' : List (Credential Other)} (h : creds.Perm creds') :
    (∃ source, openWith crates ioText sources layer creds' = .ok source) ↔
      ∃ source, openWith crates ioText sources layer creds = .ok source := by
  have same (p : String) : p ∈ passwords creds' ↔ p ∈ passwords creds :=
    (h.symm.filterMap _).mem_iff
  simp only [openWith_succeeds_iff, same]

theorem openWith_first {creds : List (Credential Other)} {pre post : List String} {p : String}
    {vol : FileVaultVolume} (hps : passwords creds = pre ++ p :: post)
    (before : ∀ q ∈ pre, ¬ Unlocks crates sources layer q)
    (found : attempt crates sources layer p = .ok vol) :
    openWith crates ioText sources layer creds = .ok (.new vol) := by
  refine (openWith_ok_iff _ _).mpr ⟨p, vol, ?_, found, rfl⟩
  have hp : Unlocks crates sources layer p := ⟨vol, found⟩
  rw [hps]
  exact List.find?_eq_some_iff_append.mpr
    ⟨by simpa using hp, pre, post, rfl, fun q hq => by simpa using before q hq⟩

end

/-- Over a ragged view the first password ends the search with a panic. -/
theorem RaggedView.not_searchesInOrder {Source Other : Type} {crates : Crates}
    {ioText : IoError → String} {sources : EncryptedSource Source}
    (layer : FileVaultLayer Source) {creds : List (Credential Other)}
    (ragged : RaggedView crates (sources.sourceCursor layer.encrypted 0 layer.len))
    (hps : passwords creds ≠ []) : ¬ SearchesInOrder crates ioText sources layer creds := by
  intro search
  have panics (p : String) : attempt crates sources layer p = panicked :=
    (unlock_panicked_iff crates _ p).mpr ragged
  obtain ⟨p, hp⟩ := Option.isSome_iff_exists.mp (List.getLast?_isSome.mpr hps)
  have none_unlocks : ∀ q ∈ passwords creds, ¬ Unlocks crates sources layer q := by
    rintro q - ⟨vol, hvol⟩
    simp [panics, panicked] at hvol
  obtain ⟨e, he, -⟩ := search.last none_unlocks p hp
  exact fail_ne_panicked e (he.symm.trans (panics p))

/-- The credential search is right for every list of credentials unless there is a password
among them and the metadata that the view delivers is ragged: then `open` panics. -/
theorem searchesInOrder_iff {Source Other : Type} (crates : Crates)
    (ioText : IoError → String) (sources : EncryptedSource Source) (encrypted : Source)
    (creds : List (Credential Other)) :
    SearchesInOrder crates ioText sources (.new sources encrypted) creds ↔
      passwords creds = [] ∨
        ¬ RaggedView crates (sources.sourceCursor encrypted 0 (sources.len encrypted)) := by
  constructor
  · intro search
    by_contra h
    obtain ⟨hps, ragged⟩ := not_or.mp h
    exact RaggedView.not_searchesInOrder (.new sources encrypted) (not_not.mp ragged) hps search
  · intro h
    -- the one clause that a panic breaks
    have last : (∀ p ∈ passwords creds, ¬ Unlocks crates sources (.new sources encrypted) p) →
        ∀ p, (passwords creds).getLast? = some p →
        ∃ e, attempt crates sources (.new sources encrypted) p = fail e ∧
          openWith crates ioText sources (.new sources encrypted) creds =
            .error (.error (mapFvdeErr ioText e)) := by
      intro none_unlocks p hp
      have some_password : passwords creds ≠ [] := by
        intro hps
        simp [hps] at hp
      have calm (p : String) : attempt crates sources (.new sources encrypted) p ≠ panicked :=
        fun hpanic => h.resolve_left some_password ((unlock_panicked_iff crates _ p).mp hpanic)
      rw [openWith_eq]
      exact tryPasswords_failing (fun q hq => attempt_fails calm (none_unlocks q hq)) none hp
    refine ⟨openWith_succeeds_iff creds, fun _ _ _ _ => openWith_first, ?_, last,
      ?_, ?_, fun _ => openWith_perm⟩
    · intro none_unlocks
      constructor
      · intro needs
        by_contra hps
        obtain ⟨p, hp⟩ := Option.isSome_iff_exists.mp (List.getLast?_isSome.mpr hps)
        obtain ⟨e, -, hopen⟩ := last none_unlocks p hp
        simp [hopen, mapFvdeErr, FileVaultLayer.needCredentials] at needs
      · intro hps
        rw [openWith_eq, hps]
        rfl
    · rintro pre c post rfl
      rw [openWith_eq, openWith_eq, passwords_insert_other]
    · rintro pre q post source rfl
      exact openWith_insert

/-- Sources that are their bytes, read through an in-memory cursor. -/
def inMemory : EncryptedSource Bytes where
  len image := .ofNat image.length
  sourceCursor image base len := .cursor (slice image base.toNat len.toNat)

/-- The view of an image in memory is that image. -/
theorem inMemory_ragged (crates : Crates) {image : Bytes} (hlen : image.length < usizeSize)
    (ragged : RaggedMetadata image) :
    RaggedView crates (inMemory.sourceCursor image 0 (inMemory.len image)) := by
  have len : (UInt64.ofNat image.length).toNat = image.length := UInt64.toNat_ofNat_of_lt' hlen
  have view : inMemory.sourceCursor image 0 (inMemory.len image) = .cursor image := by
    show Reader.cursor (slice image 0 (UInt64.ofNat image.length).toNat) = .cursor image
    rw [len, slice_all]
  rw [view]
  exact (raggedView_healthy crates (Reader.healthy_cursor image)).mpr ragged

/-- The ragged image and one password: `open` panics, where it should report the error of
the attempt. -/
theorem raggedImage_open_panics :
    ¬ SearchesInOrder standardCrates (fun _ => "") inMemory (.new inMemory raggedImage)
      [(.password "" : Credential Unit)] := by
  have ragged := inMemory_ragged standardCrates (by rw [raggedImage_length]; decide)
    raggedImage_ragged
  exact RaggedView.not_searchesInOrder (.new inMemory raggedImage) ragged
    (by simp [passwords])

end FileVault

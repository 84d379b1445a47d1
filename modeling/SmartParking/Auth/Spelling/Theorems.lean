import SmartParking.Auth.Spelling
import SmartParking.Auth.BackupCodes.Theorems
import SmartParking.Auth.Freshness.Theorems

namespace SmartParking.Auth

open Async Program Rfc6238TotpAdapter

variable {special : Char → List Char} {text : String}

-- The normal form of a text depends on its letters and digits in upper case.

def isCodeSymbol (c : Char) : Bool := ('A' ≤ c && c ≤ 'Z') || ('0' ≤ c && c ≤ '9')

def codeSymbols (special : Char → List Char) (text : String) : List Char :=
  (JsString.toUpperCase special text).toList.filter isCodeSymbol

theorem lt_of_isCodeSymbol {c : Char} (h : isCodeSymbol c = true) : c.toNat < 128 :=
  JsString.lt_of_ranges (by decide) (by decide) h

theorem normalizeBackupCode_eq (special : Char → List Char) (text : String) :
    normalizeBackupCode (JsString.toUpperCase special) text =
      if (codeSymbols special text).length = 8 then
        String.ofList ((codeSymbols special text).take 4 ++ '-' :: (codeSymbols special text).drop 4)
      else JsString.toUpperCase special (JsString.trim text) := by
  have hclean : (JsString.keep isCodeSymbol (JsString.toUpperCase special text)).toList =
      codeSymbols special text := String.toList_ofList
  have hlength : (JsString.keep isCodeSymbol (JsString.toUpperCase special text)).length =
      (codeSymbols special text).length := by rw [← String.length_toList, hclean]
  have hkept : (fun c : Char => ('A' ≤ c && c ≤ 'Z') || ('0' ≤ c && c ≤ '9')) = isCodeSymbol := rfl
  rw [normalizeBackupCode, hkept, hlength, hclean]
  refine if_congr Iff.rfl ?_ rfl
  rw [← String.toList_inj]
  simp

theorem codeSymbols_ascii (special : Char → List Char) (h : JsString.IsAscii text.toList) :
    codeSymbols special text = (text.toList.map Char.toUpper).filter isCodeSymbol := by
  rw [codeSymbols, JsString.toList_toUpperCase h]

theorem isCodeSymbol_blank {c : Char} (hc : c.toNat < 128) (h : JsString.isWhiteSpace c = true) :
    isCodeSymbol c.toUpper = false :=
  JsString.forall_ascii
    (p := fun c => JsString.isWhiteSpace c = true → isCodeSymbol c.toUpper = false)
    (by decide +kernel) c hc h

-- Blanks at the ends are no part of the normal form.
theorem codeSymbols_trim (h : PlainBlanks special text) :
    codeSymbols special (JsString.trim text) = codeSymbols special text := by
  rw [codeSymbols, codeSymbols, JsString.toUpperCase, JsString.toUpperCase, String.toList_ofList,
    String.toList_ofList, List.filter_flatMap, List.filter_flatMap]
  refine JsString.flatMap_trim fun c hc hblank => ?_
  split
  next hascii => simp [isCodeSymbol_blank hascii hblank]
  next hascii =>
    have hno : isCodeSymbol c = false :=
      Bool.eq_false_of_not_eq_true fun hsymbol => hascii (lt_of_isCodeSymbol hsymbol)
    simp [h c hc hblank (not_lt.mp hascii), hno]

theorem plainBlanks_of_isAscii (h : JsString.IsAscii text.toList) : PlainBlanks special text :=
  fun c hc _ hle => absurd (h c hc) (not_lt.mpr hle)

theorem normalizeBackupCode_trim (h : PlainBlanks special text) :
    normalizeBackupCode (JsString.toUpperCase special) (JsString.trim text) =
      normalizeBackupCode (JsString.toUpperCase special) text := by
  rw [normalizeBackupCode_eq, normalizeBackupCode_eq, codeSymbols_trim h, JsString.trim_trim]

-- The normal form is its own.

theorem toUpper_ascii {c : Char} (hc : c.toNat < 128) : c.toUpper.toNat < 128 ∧
    c.toUpper.toUpper = c.toUpper ∧ JsString.isWhiteSpace c.toUpper = JsString.isWhiteSpace c :=
  JsString.forall_ascii (p := fun c => c.toUpper.toNat < 128 ∧ c.toUpper.toUpper = c.toUpper ∧
    JsString.isWhiteSpace c.toUpper = JsString.isWhiteSpace c) (by decide +kernel) c hc

theorem isAscii_toUpperCase (h : JsString.IsAscii text.toList) :
    JsString.IsAscii (JsString.toUpperCase special text).toList := by
  rw [JsString.toList_toUpperCase h]
  intro c hc
  obtain ⟨d, hd, rfl⟩ := List.mem_map.mp hc
  exact (toUpper_ascii (h d hd)).1

theorem toUpperCase_toUpperCase (h : JsString.IsAscii text.toList) :
    JsString.toUpperCase special (JsString.toUpperCase special text) =
      JsString.toUpperCase special text := by
  rw [← String.toList_inj, JsString.toList_toUpperCase (isAscii_toUpperCase h),
    JsString.toList_toUpperCase h, List.map_map]
  exact List.map_congr_left fun c hc => (toUpper_ascii (h c hc)).2.1

theorem isAscii_trim (h : JsString.IsAscii text.toList) :
    JsString.IsAscii (JsString.trim text).toList :=
  fun c hc => h c (JsString.mem_of_mem_trim hc)

theorem trim_toUpperCase (h : JsString.IsAscii text.toList) :
    JsString.trim (JsString.toUpperCase special text) =
      JsString.toUpperCase special (JsString.trim text) := by
  rw [← String.toList_inj, JsString.toList_trim, JsString.toList_toUpperCase h,
    JsString.toList_toUpperCase (isAscii_trim h), JsString.toList_trim]
  exact JsString.trim_map fun c hc => (toUpper_ascii (h c hc)).2.2

-- The symbols of a normal form.
theorem codeSymbols_take_drop {symbols : List Char}
    (h : ∀ c ∈ symbols, isCodeSymbol c = true ∧ c.toUpper = c) (n : ℕ) :
    codeSymbols special (String.ofList (symbols.take n ++ '-' :: symbols.drop n)) = symbols := by
  have hfilter : ∀ part : List Char, (∀ c ∈ part, c ∈ symbols) →
      (part.map Char.toUpper).filter isCodeSymbol = part := by
    intro part hpart
    rw [(List.map_congr_left fun c hc => (h c (hpart c hc)).2).trans (List.map_id part)]
    exact List.filter_eq_self.mpr fun c hc => (h c (hpart c hc)).1
  have hhyphen : ¬isCodeSymbol '-'.toUpper = true := by decide
  rw [codeSymbols_ascii, String.toList_ofList, List.map_append, List.map_cons, List.filter_append,
    List.filter_cons_of_neg hhyphen, hfilter _ fun _ => List.mem_of_mem_take,
    hfilter _ fun _ => List.mem_of_mem_drop, List.take_append_drop]
  intro c hc
  rw [String.toList_ofList] at hc
  rcases List.mem_append.mp hc with hc | hc
  · exact lt_of_isCodeSymbol (h c (List.mem_of_mem_take hc)).1
  · rcases List.mem_cons.mp hc with rfl | hc
    · decide
    · exact lt_of_isCodeSymbol (h c (List.mem_of_mem_drop hc)).1

theorem normalizeBackupCode_idempotent (h : JsString.IsAscii text.toList) :
    normalizeBackupCode (JsString.toUpperCase special)
        (normalizeBackupCode (JsString.toUpperCase special) text) =
      normalizeBackupCode (JsString.toUpperCase special) text := by
  have hsymbols : ∀ c ∈ codeSymbols special text, isCodeSymbol c = true ∧ c.toUpper = c := by
    intro c hc
    obtain ⟨hm, hsymbol⟩ := List.mem_filter.mp hc
    rw [JsString.toList_toUpperCase h] at hm
    obtain ⟨d, hd, rfl⟩ := List.mem_map.mp hm
    exact ⟨hsymbol, (toUpper_ascii (h d hd)).2.1⟩
  rw [normalizeBackupCode_eq special text]
  split
  next hlength =>
    rw [normalizeBackupCode_eq, codeSymbols_take_drop hsymbols, if_pos hlength]
  next hlength =>
    have htrim := isAscii_trim h
    have hsame : codeSymbols special (JsString.toUpperCase special (JsString.trim text)) =
        codeSymbols special text := by
      rw [← codeSymbols_trim (plainBlanks_of_isAscii h), codeSymbols, codeSymbols,
        toUpperCase_toUpperCase htrim]
    rw [normalizeBackupCode_eq, hsame, if_neg hlength, trim_toUpperCase htrim, JsString.trim_trim,
      toUpperCase_toUpperCase htrim]

-- What is typed for a code has its symbols.

theorem isCodeSymbol_separator {c : Char} (h : Separator c) :
    isCodeSymbol c = false ∧ isCodeSymbol c.toUpper = false :=
  JsString.forall_ascii
    (p := fun c => c.isAlphanum = false → isCodeSymbol c = false ∧ isCodeSymbol c.toUpper = false)
    (by decide +kernel) c h.1 h.2

-- The characters of a backup code.
def codeChars : List Char := '-' :: BACKUP_CODE_ALPHABET

theorem codeChars_case : ∀ c ∈ codeChars, c.toNat < 128 ∧ c.toLower.toNat < 128 ∧
    c.toUpper = c ∧ c.toLower.toUpper = c :=
  List.forall_iff_forall_mem.mp (by decide)

-- A character that is typed for another one keeps the symbols.
theorem keeps_symbols_cons {c typed : Char} {code text : List Char} (hascii : typed.toNat < 128)
    (hupper : typed.toUpper = c) (h : JsString.IsAscii text ∧
      (text.map Char.toUpper).filter isCodeSymbol = code.filter isCodeSymbol) :
    JsString.IsAscii (typed :: text) ∧
      ((typed :: text).map Char.toUpper).filter isCodeSymbol = (c :: code).filter isCodeSymbol := by
  refine ⟨List.forall_mem_cons.mpr ⟨hascii, h.1⟩, ?_⟩
  rw [List.map_cons, hupper, List.filter_cons, List.filter_cons, h.2]

theorem Typed.keeps_symbols {code text : List Char} (h : Typed code text)
    (hcode : ∀ c ∈ code, c ∈ codeChars) : JsString.IsAscii text ∧
      (text.map Char.toUpper).filter isCodeSymbol = code.filter isCodeSymbol := by
  induction h with
  | nil => exact ⟨fun c hc => absurd hc List.not_mem_nil, rfl⟩
  | same c _ ih =>
      obtain ⟨hc, hrest⟩ := List.forall_mem_cons.mp hcode
      obtain ⟨hascii, -, hupper, -⟩ := codeChars_case c hc
      exact keeps_symbols_cons hascii hupper (ih hrest)
  | lower c _ ih =>
      obtain ⟨hc, hrest⟩ := List.forall_mem_cons.mp hcode
      obtain ⟨-, hascii, -, hupper⟩ := codeChars_case c hc
      exact keeps_symbols_cons hascii hupper (ih hrest)
  | upper c _ ih =>
      obtain ⟨hc, hrest⟩ := List.forall_mem_cons.mp hcode
      obtain ⟨hascii, -, hupper, -⟩ := codeChars_case c hc
      rw [hupper]
      exact keeps_symbols_cons hascii hupper (ih hrest)
  | inserted c hc _ ih =>
      refine ⟨List.forall_mem_cons.mpr ⟨hc.1, (ih hcode).1⟩, ?_⟩
      rw [List.map_cons, List.filter_cons_of_neg (by simp [isCodeSymbol_separator hc]),
        (ih hcode).2]
  | removed c hc _ ih =>
      obtain ⟨-, hrest⟩ := List.forall_mem_cons.mp hcode
      rw [List.filter_cons_of_neg (by simp [isCodeSymbol_separator hc])]
      exact ih hrest

-- The symbols of a backup code are its two blocks.

theorem alphabet_getD : ∀ pick : Fin 31, isCodeSymbol (BACKUP_CODE_ALPHABET.getD pick 'A') = true ∧
    BACKUP_CODE_ALPHABET.getD pick 'A' ∈ codeChars := by decide

theorem backupCodeOf_blocks (picks : Fin 8 → Fin 31) : ∃ first second : List Char,
    first.length = 4 ∧ second.length = 4 ∧ (backupCodeOf picks).toList = first ++ '-' :: second ∧
      ∀ c ∈ first ++ second, isCodeSymbol c = true ∧ c ∈ codeChars := by
  let pick (i : Fin 8) : Char := BACKUP_CODE_ALPHABET.getD (picks i) 'A'
  refine ⟨[pick 0, pick 1, pick 2, pick 3], [pick 4, pick 5, pick 6, pick 7], rfl, rfl,
    String.toList_ofList, fun c hc => ?_⟩
  have hpick : ∃ i, c = pick i := by
    simp only [List.cons_append, List.nil_append, List.mem_cons, List.not_mem_nil, or_false] at hc
    rcases hc with rfl | rfl | rfl | rfl | rfl | rfl | rfl | rfl <;> exact ⟨_, rfl⟩
  obtain ⟨i, rfl⟩ := hpick
  exact alphabet_getD (picks i)

-- Its spellings are no codes of six digits, and have it as their normal form.
theorem Typed.normal {picks : Fin 8 → Fin 31}
    (h : Typed (backupCodeOf picks).toList text.toList) :
    isSixDigits (JsString.trim text) = false ∧
      normalizeBackupCode (JsString.toUpperCase special) (JsString.trim text) =
        backupCodeOf picks := by
  obtain ⟨first, second, hfirst, hsecond, hcode, hchars⟩ := backupCodeOf_blocks picks
  have hmem : ∀ c ∈ (backupCodeOf picks).toList, c ∈ codeChars := by
    intro c hc
    rw [hcode] at hc
    rcases List.mem_append.mp hc with hc | hc
    · exact (hchars c (List.mem_append_left _ hc)).2
    · rcases List.mem_cons.mp hc with rfl | hc
      · exact List.mem_cons_self
      · exact (hchars c (List.mem_append_right _ hc)).2
  obtain ⟨hascii, hsymbols⟩ := h.keeps_symbols hmem
  have htext : codeSymbols special text = first ++ second := by
    have hhyphen : ¬isCodeSymbol '-' = true := by decide
    have hblocks := List.filter_eq_self.mpr fun c hc => (hchars c hc).1
    rw [codeSymbols_ascii special hascii, hsymbols, hcode, List.filter_append,
      List.filter_cons_of_neg hhyphen, ← List.filter_append, hblocks]
  have htrim : codeSymbols special (JsString.trim text) = first ++ second := by
    rw [codeSymbols_trim (plainBlanks_of_isAscii hascii), htext]
  have hlength : (first ++ second).length = 8 := by rw [List.length_append, hfirst, hsecond]
  refine ⟨Bool.eq_false_of_not_eq_true fun hsix => ?_, ?_⟩
  · have hle := List.length_filter_le isCodeSymbol ((JsString.trim text).toList.map Char.toUpper)
    rw [← codeSymbols_ascii special (isAscii_trim hascii), htrim, hlength,
      List.length_map, length_of_isSixDigits hsix] at hle
    omega
  · rw [normalizeBackupCode_eq, htrim, if_pos hlength, ← String.toList_inj, String.toList_ofList,
      hcode, ← hfirst, List.take_left, List.drop_left]

-- The loop over the hashes.

variable {env : Environment} {world : World} {choices : ℕ → Choice} {input : VerifyMfaInput}
  {userId : Id} {totpSecretEnc plain : String} {codes : List String} {hashOf : String → String}

theorem wp_tryHashes_of_mem (h : IdealHasher env codes hashOf) (user : User) {front rest : List String}
    (hcodes : codes = front ++ rest) (hfront : plain ∉ front) (hrest : plain ∈ rest) (world : World)
    (hon : credentials world.db userId ≠ .empty) :
    (VerifyMfaUseCase.tryHashes userId (codes.map hashOf) plain front.length (rest.map hashOf) >>=
      fun accepted => if accepted then issueAccessSession user
        else throw (.domain .InvalidMfaCode)).wp (serve env) world fun result world' =>
          result.isOk = true ∧ credentials world'.db userId = (credentials world.db userId).patch {
            backupCodeHashes := some ((codes.erase plain).map hashOf) } := by
  induction rest generalizing front world with
  | nil => exact absurd hrest List.not_mem_nil
  | cons code rest ih =>
      have hm : code ∈ codes := hcodes ▸ List.mem_append_right _ List.mem_cons_self
      intro choice
      change ((if env.compare plain (hashOf code) then _ else _ : Port Bool) >>= _).wp _
        { world with clock := world.clock + choice.elapsed } _
      by_cases heq : plain = code
      · subst heq
        have herase : (codes.map hashOf).eraseIdx front.length = (codes.erase plain).map hashOf := by
          rw [hcodes, List.erase_append_right _ hfront, List.erase_cons_head, List.eraseIdx_map,
            List.eraseIdx_append_of_length_le (le_refl _), Nat.sub_self, List.eraseIdx_cons_zero]
        rw [if_pos ((h.compare plain hm plain).mpr rfl), herase]
        exact wp_accept env { world with clock := world.clock + choice.elapsed } hon user _
      · rw [if_neg fun hequal => heq ((h.compare code hm plain).mp hequal)]
        have hlater : plain ∈ rest := (List.mem_cons.mp hrest).resolve_left heq
        have hsplit : codes = (front ++ [code]) ++ rest := by rw [hcodes, List.append_assoc]; rfl
        have hindex : front.length + 1 = (front ++ [code]).length := by simp
        rw [hindex]
        exact ih hsplit (by simp [hfront, heq]) hlater _ hon

theorem wp_tryHashes_of_notMem (h : IdealHasher env codes hashOf) (user : User) (index : ℕ)
    {rest : List String} (hrest : ∀ code ∈ rest, code ∈ codes) (hplain : plain ∉ codes) :
    (VerifyMfaUseCase.tryHashes userId (codes.map hashOf) plain index (rest.map hashOf) >>=
      fun accepted => if accepted then issueAccessSession user
        else throw (.domain .InvalidMfaCode)).wp (serve env) world fun result world' =>
          result.isOk = false ∧ world'.db = world.db := by
  induction rest generalizing index world with
  | nil => exact ⟨rfl, rfl⟩
  | cons code rest ih =>
      obtain ⟨hm, hrest⟩ := List.forall_mem_cons.mp hrest
      intro choice
      change ((if env.compare plain (hashOf code) then _ else _ : Port Bool) >>= _).wp _
        { world with clock := world.clock + choice.elapsed } _
      rw [if_neg fun hequal => hplain ((h.compare code hm plain).mp hequal ▸ hm)]
      exact ih (index + 1) hrest

-- A code of the other kind leaves the list as it is.

def KeepsCodes (userId : Id) (world world' : World) : Prop :=
  (credentials world'.db userId).backupCodeHashes = (credentials world.db userId).backupCodeHashes

theorem serve_keeps_codes {call : Call} (h : call.OnlyPatches (·.backupCodeHashes = none))
    (choice : Choice) (world : World) :
    KeepsCodes userId world (serve env choice world call).2 := by
  unfold KeepsCodes
  by_cases hcall : ∃ patch, call = .updateMfa userId patch
  · obtain ⟨patch, rfl⟩ := hcall
    rcases serve_updateMfa_cases env choice world userId patch with
      ⟨world', hs, hdb⟩ | ⟨err, world', hs, hdb, -⟩
    · have hpatch : patch.backupCodeHashes = none := h
      rw [hs, hdb, if_pos rfl, MfaCredentials.patch, hpatch]
      rfl
    · rw [hs, hdb]
  · exact congrArg MfaCredentials.backupCodeHashes
      (credentials_query fun patch heq => hcall ⟨patch, heq⟩)

theorem wp_keeps_codes {α : Type} {p : Port α}
    (hp : p.Uses (Call.OnlyPatches (·.backupCodeHashes = none))) (world : World) :
    p.wp (serve env) world fun _ => KeepsCodes userId world := by
  have hrefl : ∀ world, KeepsCodes userId world world := fun _ => rfl
  refine wp_of_uses hrefl ?_ (fun _ h choice world => ?_) hp world
  · exact fun _ _ _ h h' => h'.trans h
  · exact serve_keeps_codes h choice world

theorem uses_factor_totp {code : String} (hsix : isSixDigits code = true) (user : User)
    (found : MfaCredentials) : (VerifyMfaUseCase.factor env userId user found totpSecretEnc code).Uses
      (Call.OnlyPatches (·.backupCodeHashes = none)) := by
  rw [VerifyMfaUseCase.factor, VerifyMfaUseCase.consume, if_pos hsix]
  refine uses_bind (uses_consumeTotp (fun _ => trivial) (fun _ _ => trivial) (fun _ => rfl) _ _ _)
    fun accepted => ?_
  split
  · exact uses_issueAccessSession (fun _ => trivial) user
  · trivial

-- The requests of a user who has the hashes of some codes.

theorem Holds.run_backup (h : Holds env world choices input userId totpSecretEnc codes hashOf)
    (hsix : isSixDigits (JsString.trim input.code) = false) :
    ∃ user, verifyMfa env world choices input =
      (VerifyMfaUseCase.tryHashes userId (codes.map hashOf) (presented env input) 0
        (codes.map hashOf) >>= fun accepted =>
          if accepted then issueAccessSession user else throw (.domain .InvalidMfaCode)).run
            (serve env) (fun n => choices (n + 3)) { world with clock := clockAt world choices 2 } := by
  obtain ⟨user, hrun⟩ := h.run
  refine ⟨user, hrun.trans ?_⟩
  rw [VerifyMfaUseCase.factor, VerifyMfaUseCase.consume, if_neg (by simp [hsix]),
    VerifyMfaUseCase.consumeBackupCode, h.stored]
  rfl

theorem Holds.accepts_code (h : Holds env world choices input userId totpSecretEnc codes hashOf)
    (hsix : isSixDigits (JsString.trim input.code) = false) (hm : presented env input ∈ codes) :
    (verifyMfa env world choices input).1.isOk = true ∧
      credentials (verifyMfa env world choices input).2.db userId =
        (credentials world.db userId).patch {
          backupCodeHashes := some ((codes.erase (presented env input)).map hashOf) } := by
  obtain ⟨user, hrun⟩ := h.run_backup hsix
  rw [hrun]
  exact run_of_wp (wp_tryHashes_of_mem h.toIdealHasher user (List.nil_append codes).symm
    List.not_mem_nil hm { world with clock := clockAt world choices 2 } h.ne_empty) _

theorem Holds.rejects_code (h : Holds env world choices input userId totpSecretEnc codes hashOf)
    (hsix : isSixDigits (JsString.trim input.code) = false) (hm : presented env input ∉ codes) :
    (verifyMfa env world choices input).1.isOk = false ∧
      (verifyMfa env world choices input).2.db = world.db := by
  obtain ⟨user, hrun⟩ := h.run_backup hsix
  rw [hrun]
  exact run_of_wp (wp_tryHashes_of_notMem h.toIdealHasher user 0 (fun _ h => h) hm) _

theorem Challenged.keeps_codes (h : Challenged env world choices input userId totpSecretEnc)
    (hsix : isSixDigits (JsString.trim input.code) = true) :
    KeepsCodes userId world (verifyMfa env world choices input).2 := by
  obtain ⟨user, hrun⟩ := h.run
  rw [hrun]
  exact run_of_wp (wp_keeps_codes (uses_factor_totp hsix user _)
    { world with clock := clockAt world choices 2 }) _

theorem Challenged.rejects_totp (h : Challenged env world choices input userId totpSecretEnc)
    (hsix : isSixDigits (JsString.trim input.code) = true)
    (htotp : ¬IsTotp env (clockAt world choices 4) totpSecretEnc
      (credentials world.db userId).lastStep (JsString.trim input.code)) :
    (verifyMfa env world choices input).1.isOk = false := by
  cases hdecrypt : env.decrypt totpSecretEnc with
  | error err =>
      obtain ⟨user, hrun⟩ := h.run
      rw [hrun, VerifyMfaUseCase.factor, VerifyMfaUseCase.consume, if_pos hsix]
      change (Program.run (serve env)
        ((Program.done (env.decrypt totpSecretEnc) >>= _) >>= _) _ _).1.isOk = false
      rw [hdecrypt]
      rfl
  | ok secret =>
      cases hfound : verify env.createHmac env.toUpperCase (clockAt world choices 4) secret
          (JsString.trim input.code) with
      | ok found =>
          cases found with
          | none => exact h.rejects hdecrypt hsix hfound (by simp)
          | some step =>
              cases hused : used (credentials world.db userId).lastStep step with
              | true => exact h.rejects hdecrypt hsix hfound fun _ h => Option.some.inj h ▸ hused
              | false => exact absurd ⟨hsix, secret, step, hdecrypt, hfound, hused⟩ htotp
      | error err =>
          obtain ⟨user, hrun⟩ := h.run_decrypted hdecrypt hsix
          rw [hrun, hfound]
          rfl

-- A text that is no code of six digits does not get to the other kind.
theorem uses_without_totp (hsix : isSixDigits (JsString.trim input.code) = false) :
    (VerifyMfaUseCase.execute env input).Uses fun call =>
      ∀ secret code, call ≠ .totpVerify secret code := by
  have hchallenge : (VerifyMfaUseCase.challenge input.mfaToken).Uses fun call =>
      ∀ secret code, call ≠ .totpVerify secret code :=
    uses_tryCatch (uses_perform (by simp)) fun _ => trivial
  refine uses_bind hchallenge fun id =>
    uses_bind (uses_both (uses_perform (by simp)) (uses_perform (by simp))) fun found => ?_
  unfold VerifyMfaUseCase.withCredentials
  split
  · split
    · trivial
    · rw [VerifyMfaUseCase.factor, VerifyMfaUseCase.consume, if_neg (by simp [hsix])]
      refine uses_bind (uses_tryHashes (by simp) (by simp) _ _ _ _) fun accepted => ?_
      split
      · exact uses_issueAccessSession (by simp) _
      · trivial
  · trivial

-- A backup code is recognised however it is typed, and only fresh TOTP codes pass beside them.
theorem backupCodes_recognised (env : Environment) :
    Recognised env fun now totpSecretEnc lastStep code =>
      ¬IsTotp env now totpSecretEnc lastStep code where
  typed {world choices input userId totpSecretEnc codes hashOf} h picks hm htyped := by
    obtain ⟨hsix, hnormal⟩ := htyped.normal
    have hpresented : presented env input = backupCodeOf picks := hnormal
    rw [← hpresented] at hm ⊢
    exact ⟨uses_without_totp hsix, h.accepts_code hsix hm⟩
  other {world choices input userId totpSecretEnc codes hashOf} h hm := by
    cases hsix : isSixDigits (JsString.trim input.code) with
    | false =>
        obtain ⟨hrejects, hdb⟩ := h.rejects_code hsix hm
        exact ⟨by rw [hdb, h.stored], fun _ => hrejects⟩
    | true => exact ⟨(h.keeps_codes hsix).trans h.stored, h.rejects_totp hsix⟩
  trimmed _ := normalizeBackupCode_trim
  idempotent _ := normalizeBackupCode_idempotent

theorem Demo.holds (code : String) : Holds Demo.env (Demo.world Demo.holder)
    (fun _ => Demo.choice "iv") { mfaToken := "u1", code } "u1" "iv.AAAA" Demo.backupCodes
      ("s." ++ ·) :=
  { Demo.idealHasher with
    token := rfl
    active := by decide +kernel
    stored := by decide +kernel }

-- The code BBBB-BBBB in both cases, without its hyphen and with separators elsewhere.
theorem backupCodes_recognised_typed :
    (verifyMfa Demo.env (Demo.world Demo.holder) (fun _ => Demo.choice "iv")
      { mfaToken := "u1", code := " bB.b-BbB bb" }).1.isOk = true ∧
    credentials (verifyMfa Demo.env (Demo.world Demo.holder) (fun _ => Demo.choice "iv")
      { mfaToken := "u1", code := " bB.b-BbB bb" }).2.db "u1" =
        (credentials (Demo.world Demo.holder).db "u1").patch {
          backupCodeHashes := some ["s.AAAA-AAAA"] } := by
  have hcode : backupCodeOf (fun _ => 1) = "BBBB-BBBB" := by decide
  have hsymbols : Typed "BBBB-BBBB".toList " bB.b-BbB bb".toList :=
    .inserted ' ' (by decide) <| .lower 'B' <| .same 'B' <| .inserted '.' (by decide) <|
      .lower 'B' <| .inserted '-' (by decide) <| .upper 'B' <| .removed '-' (by decide) <|
        .lower 'B' <| .same 'B' <| .inserted ' ' (by decide) <| .lower 'B' <| .lower 'B' .nil
  obtain ⟨-, haccepts⟩ := (backupCodes_recognised Demo.env).typed (Demo.holds " bB.b-BbB bb")
    (fun _ => 1) (by rw [hcode]; decide) (by rw [hcode]; exact hsymbols)
  rwa [hcode] at haccepts

-- A TOTP code is no backup code, and is accepted.
theorem backupCodes_fail : ¬∀ env, Recognised env fun _ _ _ _ => True := by
  intro h
  have hrejects := ((h Demo.env).other (Demo.holds "000000") (by decide +kernel)).2 trivial
  exact absurd hrejects (by decide +kernel)

end SmartParking.Auth

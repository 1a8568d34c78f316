import Defib.Profiles.Loader

/-!
# Looking up profiles

`profile_lookups_agree` says that `list_variants` lists exactly the variants that `load_profile`
knows: lower-cased, as it asks for them.  `recovery_mode` passes on what `load_profile` raises, but
for a profile that does not exist, and an alias loop is never taken for one.
-/

namespace Defib

namespace Profiles

variable {libs : Libraries} {dir : ProfilesDir}

/-! ## Names -/

/-- A variant does not change which profile is meant. -/
lemma parseChipVariant_fst_append (libs : Libraries) (chip v : Text) :
    (parseChipVariant libs (chip ++ ':' :: v)).1 = (parseChipVariant libs chip).1 := by
  have hmem : ':' ∈ chip ++ ':' :: v := by simp
  rw [parseChipVariant, if_pos hmem, parseChipVariant]
  by_cases hchip : ':' ∈ chip
  · have hstops : (chip.takeWhile fun c => decide (c ≠ ':')).length ≠ chip.length := by
      intro hall
      have hself : chip.takeWhile (fun c => decide (c ≠ ':')) = chip :=
        (List.takeWhile_prefix _).eq_of_length hall
      have hfront : (chip.takeWhile fun c => decide (c ≠ ':')).all fun c => decide (c ≠ ':') :=
        List.all_takeWhile
      rw [hself] at hfront
      exact of_decide_eq_true (List.all_eq_true.mp hfront ':' hchip) rfl
    rw [if_pos hchip]
    show libs.lower ((chip ++ ':' :: v).takeWhile fun c => decide (c ≠ ':')) = _
    rw [List.takeWhile_append, if_neg hstops]
  · have hall : ∀ c ∈ chip, decide (c ≠ ':') = true := fun c hc =>
      decide_eq_true fun h => hchip (h ▸ hc)
    rw [if_neg hchip]
    show libs.lower ((chip ++ ':' :: v).takeWhile fun c => decide (c ≠ ':')) = _
    rw [List.takeWhile_append_of_pos hall, List.takeWhile_cons_of_neg (by simp), List.append_nil]

/-! ## What is raised -/

/-- No exception of a kind is raised. -/
def Avoids {α : Type} (kind : ProfileFailure → Prop) (r : Except ProfileFailure α) : Prop :=
  ∀ e, r = .error e → ¬ kind e

section Avoids

variable {α β : Type} {kind : ProfileFailure → Prop}

lemma avoids_ok (a : α) : Avoids kind (.ok a : Except ProfileFailure α) := by
  intro e he
  cases he

lemma avoids_error {e : ProfileFailure} (h : ¬ kind e) :
    Avoids kind (.error e : Except ProfileFailure α) := by
  intro e' he
  cases he
  exact h

lemma Avoids.bind {x : Except ProfileFailure α} {f : α → Except ProfileFailure β}
    (hx : Avoids kind x) (hf : ∀ a, Avoids kind (f a)) : Avoids kind (x >>= f) := by
  cases x with
  | error e => exact avoids_error (hx e rfl)
  | ok a => exact hf a

/-- Exceptions of a library. -/
lemma avoids_raise (hkind : ∀ e, ¬ kind (.raised e)) (r : Except PyFailure α) :
    Avoids kind (raise r) := by
  cases r with
  | error e => exact avoids_error (hkind e)
  | ok a => exact avoids_ok a

end Avoids

/-- The `ValueError` for a variant that is not declared. -/
def IsUnknownVariant (e : ProfileFailure) : Prop :=
  ∃ variant current available, e = .unknownVariant variant current available

/-- The `FileNotFoundError` for a profile. -/
def IsNoProfile (e : ProfileFailure) : Prop := ∃ current, e = .noProfile current

lemma not_isUnknownVariant_raised (e : PyFailure) : ¬ IsUnknownVariant (.raised e) := by
  rintro ⟨_, _, _, h⟩
  cases h

lemma not_isNoProfile_raised (e : PyFailure) : ¬ IsNoProfile (.raised e) := by
  rintro ⟨_, h⟩
  cases h

lemma avoids_readBlob {kind : ProfileFailure → Prop} (hkind : ∀ e, ¬ kind (.raised e))
    (hblob : ∀ splBlob current, ¬ kind (.noBlob splBlob current)) (dir : ProfilesDir)
    (current : Text) (profile : SoCProfile) : Avoids kind (readBlob dir current profile) := by
  unfold readBlob
  split
  · exact avoids_ok profile
  · exact avoids_ok profile
  · split
    · exact avoids_error (hblob _ _)
    · exact (avoids_raise hkind _).bind fun _ => avoids_ok _

lemma avoids_applyVariant_noProfile (variant : Option Text) (current : Text) (variants : Json)
    (data : Dict Text Json) :
    Avoids IsNoProfile (applyVariant variant current variants data) := by
  have hunknown : ∀ v available, ¬ IsNoProfile (.unknownVariant v current available) := by
    rintro v available ⟨_, h⟩
    cases h
  cases variant with
  | none => exact avoids_ok data
  | some v =>
      refine (avoids_raise not_isNoProfile_raised _).bind fun found => ?_
      cases found with
      | true =>
          exact (avoids_raise not_isNoProfile_raised _).bind fun _ =>
            avoids_raise not_isNoProfile_raised _
      | false =>
          exact (avoids_raise not_isNoProfile_raised _).bind fun available =>
            avoids_error (hunknown v available)

/-! ## The variants of a file -/

/-- The file that a chip name leads to is an object in which `variants` is one. -/
def DeclaredVariants (libs : Libraries) (dir : ProfilesDir) (chip : Text)
    (variants : List (Text × Json)) : Prop :=
  ∃ current text members,
    resolve libs dir (parseChipVariant libs chip).1 = some current ∧
      dir.profile current = some (.ok text) ∧
      libs.loads (libs.chars.strip text) = .ok (.obj members) ∧
      Dict.get? members variantsKey = some (.obj variants)

/-- A chip name leads to a profile that declares variants. -/
def DeclaresVariants (libs : Libraries) (dir : ProfilesDir) (chip : Text) : Prop :=
  ∃ variants, DeclaredVariants libs dir chip variants ∧ variants ≠ []

lemma mem_sorted {texts : List Text} {text : Text} : text ∈ sorted texts ↔ text ∈ texts :=
  List.mem_insertionSort _

lemma orEmpty_obj (members : List (Text × Json)) : (Json.obj members).orEmpty = .obj members := by
  cases members with
  | nil => rfl
  | cons m members => rfl

/-- Only an object has keys. -/
lemma mem_keys_orEmpty_iff {value : Json} {w : Text} :
    (∃ names, value.orEmpty.keys = .ok names ∧ w ∈ names) ↔
      ∃ variants, value = .obj variants ∧ w ∈ variants.map Prod.fst := by
  constructor
  · rintro ⟨names, hnames, hw⟩
    rw [Json.orEmpty] at hnames
    split_ifs at hnames with htruthy
    · cases value with
      | obj variants =>
          obtain rfl := Except.ok.inj hnames
          exact ⟨variants, rfl, hw⟩
      | _ => cases hnames
    · obtain rfl := Except.ok.inj hnames
      cases hw
  · rintro ⟨variants, rfl, hw⟩
    rw [orEmpty_obj]
    exact ⟨_, rfl, hw⟩

/-- What is listed are the keys of the object `variants`. -/
lemma mem_variantNames_iff {data : Json} {w : Text} :
    (∃ names, variantNames data = .ok names ∧ w ∈ names) ↔
      ∃ members variants, data = .obj members ∧
        Dict.get? members variantsKey = some (.obj variants) ∧ w ∈ variants.map Prod.fst := by
  constructor
  · rintro ⟨names, hnames, hw⟩
    cases data with
    | obj members =>
        rw [variantNames] at hnames
        cases hkeys : ((Dict.get? members variantsKey).getD .null).orEmpty.keys with
        | error e =>
            rw [hkeys] at hnames
            cases hnames
        | ok names' =>
            rw [hkeys] at hnames
            obtain rfl := Except.ok.inj hnames
            obtain ⟨variants, hvalue, hmem⟩ :=
              mem_keys_orEmpty_iff.mp ⟨names', hkeys, mem_sorted.mp hw⟩
            refine ⟨members, variants, rfl, ?_, hmem⟩
            cases hget : Dict.get? members variantsKey with
            | none =>
                rw [hget] at hvalue
                cases hvalue
            | some value =>
                rw [hget] at hvalue
                exact congrArg some hvalue
    | _ => cases hnames
  · rintro ⟨members, variants, rfl, hget, hw⟩
    refine ⟨sorted (variants.map Prod.fst), ?_, mem_sorted.mpr hw⟩
    rw [variantNames, hget, Option.getD_some, orEmpty_obj]
    rfl

/-- **What is listed** are the variants that the file declares. -/
lemma mem_listVariants_iff {chip w : Text} :
    (∃ names, listVariants libs dir chip = .ok names ∧ w ∈ names) ↔
      ∃ variants, DeclaredVariants libs dir chip variants ∧ w ∈ variants.map Prod.fst := by
  constructor
  · rintro ⟨names, hnames, hw⟩
    unfold listVariants at hnames
    cases hresolve : resolve libs dir (parseChipVariant libs chip).1 with
    | none =>
        rw [hresolve] at hnames
        obtain rfl := Except.ok.inj hnames
        cases hw
    | some current =>
        simp only [hresolve] at hnames
        cases hprofile : dir.profile current with
        | none =>
            rw [hprofile] at hnames
            obtain rfl := Except.ok.inj hnames
            cases hw
        | some read =>
            rw [hprofile] at hnames
            cases read with
            | error e => cases hnames
            | ok text =>
                simp only at hnames
                cases hloads : libs.loads (libs.chars.strip text) with
                | error e =>
                    rw [hloads] at hnames
                    cases e with
                    | jsonDecodeError =>
                        obtain rfl := Except.ok.inj hnames
                        cases hw
                    | _ => cases hnames
                | ok data =>
                    rw [hloads] at hnames
                    obtain ⟨members, variants, rfl, hget, hmem⟩ :=
                      mem_variantNames_iff.mp ⟨names, hnames, hw⟩
                    exact ⟨variants, ⟨current, text, members, hresolve, hprofile, hloads, hget⟩,
                      hmem⟩
  · rintro ⟨variants, ⟨current, text, members, hresolve, hprofile, hloads, hget⟩, hw⟩
    obtain ⟨names, hnames, hmem⟩ := mem_variantNames_iff.mpr ⟨members, variants, rfl, hget, hw⟩
    refine ⟨names, ?_, hmem⟩
    unfold listVariants
    rw [hresolve]
    simp only [hprofile, hloads]
    exact hnames

/-! ## Loading -/

section Load

variable {kind : ProfileFailure → Prop}

/-- Behind the variant, only a library or a missing blob raises. -/
lemma avoids_buildProfile (hkind : ∀ e, ¬ kind (.raised e))
    (hblob : ∀ splBlob current, ¬ kind (.noBlob splBlob current)) {variant : Option Text}
    {current : Text} {parts : Json × Dict Text Json}
    (happly : Avoids kind (applyVariant variant current parts.1.orEmpty parts.2)) :
    Avoids kind (buildProfile libs dir variant current parts) :=
  happly.bind fun _ => (avoids_raise hkind _).bind fun profile =>
    avoids_readBlob hkind hblob dir current profile

lemma avoids_readProfile (hkind : ∀ e, ¬ kind (.raised e))
    (hblob : ∀ splBlob current, ¬ kind (.noBlob splBlob current)) {variant : Option Text}
    {current content : Text}
    (happly : ∀ variants data, Avoids kind (applyVariant variant current variants data)) :
    Avoids kind (readProfile libs dir variant current content) :=
  (avoids_raise hkind _).bind fun _ => (avoids_raise hkind _).bind fun parts =>
    avoids_buildProfile hkind hblob (happly parts.1.orEmpty parts.2)

end Load

lemma not_isUnknownVariant_noBlob (splBlob current : Text) :
    ¬ IsUnknownVariant (.noBlob splBlob current) := by
  rintro ⟨_, _, _, h⟩
  cases h

lemma not_isNoProfile_noBlob (splBlob current : Text) :
    ¬ IsNoProfile (.noBlob splBlob current) := by
  rintro ⟨_, h⟩
  cases h

/-- A variant that is declared is applied. -/
lemma avoids_applyVariant_of_mem {variants : List (Text × Json)} {w : Text}
    (hw : w ∈ variants.map Prod.fst) (current : Text) (data : Dict Text Json) :
    Avoids IsUnknownVariant (applyVariant (some w) current (.obj variants) data) := by
  have hfound : Json.contains w (.obj variants) = .ok true := by
    obtain ⟨m, hm, rfl⟩ := List.mem_map.mp hw
    rw [Json.contains, List.any_eq_true.mpr ⟨m, hm, decide_eq_true rfl⟩]
  show Avoids IsUnknownVariant
    (raise (Json.contains w (.obj variants)) >>= applyFound w current (.obj variants) data)
  rw [hfound]
  show Avoids IsUnknownVariant (raise (Json.subscript w (.obj variants)) >>= fun override =>
    raise (Json.update data override))
  exact (avoids_raise not_isUnknownVariant_raised _).bind fun _ =>
    avoids_raise not_isUnknownVariant_raised _

lemma availableNames_obj (variants : List (Text × Json)) :
    ∃ available, availableNames (.obj variants) = .ok available := by
  have hall : (((variants.map fun m => Json.str m.1).map Json.text?).all Option.isSome) = true := by
    rw [List.all_eq_true]
    intro text htext
    obtain ⟨value, hvalue, rfl⟩ := List.mem_map.mp htext
    obtain ⟨m, -, rfl⟩ := List.mem_map.mp hvalue
    rfl
  refine ⟨sorted ((variants.map fun m => Json.str m.1).filterMap Json.text?), ?_⟩
  show (if ((variants.map fun m => Json.str m.1).map Json.text?).all Option.isSome then _
    else _) = _
  exact if_pos hall

/-- A variant that is not declared is refused. -/
lemma applyVariant_of_notMem {variants : List (Text × Json)} {w : Text}
    (hw : w ∉ variants.map Prod.fst) (current : Text) (data : Dict Text Json) :
    ∃ available, applyVariant (some w) current (.obj variants) data =
      .error (.unknownVariant w current available) := by
  have hfound : Json.contains w (.obj variants) = .ok false := by
    have hnone : variants.any (fun m => decide (m.1 = w)) = false := by
      apply List.any_eq_false.mpr
      intro m hm hkey
      exact hw (List.mem_map.mpr ⟨m, hm, of_decide_eq_true hkey⟩)
    rw [Json.contains, hnone]
  obtain ⟨available, havailable⟩ := availableNames_obj variants
  refine ⟨available, ?_⟩
  show raise (Json.contains w (.obj variants)) >>= applyFound w current (.obj variants) data = _
  rw [hfound]
  show raise (availableNames (.obj variants)) >>= _ = _
  rw [havailable]
  rfl

/-- What is read of a file that declares variants. -/
lemma loadProfile_of_declared {name : Text} {variant : Option Text}
    (hname : (parseChipVariant libs name).2 = variant) {variants : List (Text × Json)}
    (h : DeclaredVariants libs dir name variants) :
    ∃ current data, loadProfile libs dir name =
      buildProfile libs dir variant current (.obj variants, data) := by
  obtain ⟨current, text, members, hresolve, hprofile, hloads, hget⟩ := h
  refine ⟨current, Dict.del members variantsKey, ?_⟩
  unfold loadProfile
  simp only [hresolve, hprofile]
  rw [hname, readProfile, hloads]
  show (raise (popVariants (.obj members))) >>= buildProfile libs dir variant current = _
  rw [popVariants, hget]
  rfl

/-- **A variant is refused exactly when it is not declared.** -/
lemma loadProfile_unknown_iff {name w : Text} (hname : (parseChipVariant libs name).2 = some w)
    {variants : List (Text × Json)} (h : DeclaredVariants libs dir name variants) :
    Avoids IsUnknownVariant (loadProfile libs dir name) ↔ w ∈ variants.map Prod.fst := by
  obtain ⟨current, data, hload⟩ := loadProfile_of_declared hname h
  rw [hload]
  constructor
  · intro havoids
    by_contra hw
    obtain ⟨available, happly⟩ := applyVariant_of_notMem hw current data
    have hrefused : buildProfile libs dir (some w) current (.obj variants, data) =
        .error (.unknownVariant w current available) := by
      unfold buildProfile
      rw [orEmpty_obj, happly]
      rfl
    exact havoids _ hrefused ⟨w, current, available, rfl⟩
  · intro hw
    refine avoids_buildProfile not_isUnknownVariant_raised not_isUnknownVariant_noBlob ?_
    rw [orEmpty_obj]
    exact avoids_applyVariant_of_mem hw current data

/-- What `load_profile` raises is raised by the chain, by the variant, or by a library. -/
lemma avoids_loadProfile {kind : ProfileFailure → Prop} {name : Text}
    (hkind : ∀ e, ¬ kind (.raised e)) (hblob : ∀ splBlob current, ¬ kind (.noBlob splBlob current))
    (hdeep : ¬ kind (.tooDeep name))
    (hmissing : ∀ current, resolve libs dir (parseChipVariant libs name).1 = some current →
      dir.profile current = none → ¬ kind (.noProfile current))
    (happly : ∀ current variants data,
      Avoids kind (applyVariant (parseChipVariant libs name).2 current variants data)) :
    Avoids kind (loadProfile libs dir name) := by
  unfold loadProfile
  cases hresolve : resolve libs dir (parseChipVariant libs name).1 with
  | none =>
      simp only [hresolve]
      exact avoids_error hdeep
  | some current =>
      simp only [hresolve]
      cases hprofile : dir.profile current with
      | none => exact avoids_error (hmissing current hresolve hprofile)
      | some read =>
          cases read with
          | error e => exact avoids_error (hkind e)
          | ok text => exact avoids_readProfile hkind hblob (happly current)

/-- Without a variant none is unknown. -/
lemma avoids_unknown_of_no_variant {name : Text} (hname : (parseChipVariant libs name).2 = none) :
    Avoids IsUnknownVariant (loadProfile libs dir name) := by
  apply avoids_loadProfile not_isUnknownVariant_raised not_isUnknownVariant_noBlob
  · rintro ⟨_, _, _, h⟩
    cases h
  · rintro current - - ⟨_, _, _, h⟩
    cases h
  · intro current variants data
    rw [hname]
    exact avoids_ok data

/-- A profile is missing only where the aliases end. -/
lemma avoids_noProfile {name : Text}
    (h : ∀ current, resolve libs dir (parseChipVariant libs name).1 = some current →
      dir.profile current ≠ none) :
    Avoids IsNoProfile (loadProfile libs dir name) := by
  apply avoids_loadProfile not_isNoProfile_raised not_isNoProfile_noBlob
  · rintro ⟨_, h⟩
    cases h
  · exact fun current hresolve hnone => absurd hnone (h current hresolve)
  · exact fun current variants data => avoids_applyVariant_noProfile _ current variants data

/-- **`list_variants` and `load_profile` agree.** -/
lemma listed_iff_known {chip v w : Text}
    (hname : (parseChipVariant libs (chip ++ ':' :: v)).2 = some w) :
    (∃ names, listVariants libs dir chip = .ok names ∧ w ∈ names) ↔
      Avoids IsUnknownVariant (loadProfile libs dir (chip ++ ':' :: v)) ∧
        DeclaresVariants libs dir chip := by
  have hsame : ∀ variants, DeclaredVariants libs dir (chip ++ ':' :: v) variants ↔
      DeclaredVariants libs dir chip variants := by
    intro variants
    rw [DeclaredVariants, parseChipVariant_fst_append, DeclaredVariants]
  rw [mem_listVariants_iff]
  constructor
  · rintro ⟨variants, hdeclared, hw⟩
    refine ⟨(loadProfile_unknown_iff hname ((hsame variants).mpr hdeclared)).mpr hw, variants,
      hdeclared, ?_⟩
    rintro rfl
    cases hw
  · rintro ⟨havoids, variants, hdeclared, -⟩
    exact ⟨variants, hdeclared,
      (loadProfile_unknown_iff hname ((hsame variants).mpr hdeclared)).mp havoids⟩

/-! ## The recovery mode -/

/-- The `FileNotFoundError` for a blob. -/
def IsNoBlob (e : ProfileFailure) : Prop := ∃ splBlob current, e = .noBlob splBlob current

lemma recoveryMode_of_error {chip : Text} {e : ProfileFailure}
    (h : loadProfile libs dir chip = .error e) (hprofile : ¬ IsNoProfile e)
    (hblob : ¬ IsNoBlob e) : recoveryMode libs dir chip = .error e := by
  unfold recoveryMode
  rw [h]
  cases e with
  | noProfile current => exact absurd ⟨current, rfl⟩ hprofile
  | noBlob splBlob current => exact absurd ⟨splBlob, current, rfl⟩ hblob
  | unknownVariant variant current available => rfl
  | tooDeep chipName => rfl
  | raised e => rfl

/-- A name without a file is the end of its chain. -/
lemma resolve_of_missing {base : Text} (h : dir.profile base = none) :
    resolve libs dir base = some base := by
  have halias : aliasOf libs dir base = none := by
    unfold aliasOf
    rw [h]
  rw [resolve, maxAliasDepth, chainEnd, halias]

/-- A chip without a profile. -/
lemma recoveryMode_of_missing {chip : Text}
    (h : dir.profile (parseChipVariant libs chip).1 = none) :
    recoveryMode libs dir chip = .ok .uart := by
  have hload : loadProfile libs dir chip =
      .error (.noProfile (parseChipVariant libs chip).1) := by
    unfold loadProfile
    simp only [resolve_of_missing h, h]
  unfold recoveryMode
  rw [hload]

/-- **Aliases without an end are too deep.** -/
lemma recoveryMode_of_loop {chip : Text}
    (h : (chain (aliasOf libs dir) maxAliasDepth (parseChipVariant libs chip).1).isSome) :
    recoveryMode libs dir chip = .error (.tooDeep chip) := by
  have hresolve : resolve libs dir (parseChipVariant libs chip).1 = none :=
    chainEnd_eq_none_iff.mpr h
  have hload : loadProfile libs dir chip = .error (.tooDeep chip) := by
    unfold loadProfile
    simp only [hresolve]
  unfold recoveryMode
  rw [hload]

/-- **Profile lookups agree**, for the variant that is asked for. -/
theorem profile_lookups_agree (libs : Libraries) (dir : ProfilesDir) (chip v : Text) :
    (∀ w, (parseChipVariant libs (chip ++ ':' :: v)).2 = some w →
        ((∃ names, listVariants libs dir chip = .ok names ∧ w ∈ names) ↔
          Avoids IsUnknownVariant (loadProfile libs dir (chip ++ ':' :: v)) ∧
            DeclaresVariants libs dir chip)) ∧
      ((parseChipVariant libs (chip ++ ':' :: v)).2 = none →
        Avoids IsUnknownVariant (loadProfile libs dir (chip ++ ':' :: v))) ∧
      (dir.profile (parseChipVariant libs chip).1 = none →
        recoveryMode libs dir chip = .ok .uart) ∧
      (∀ e, loadProfile libs dir chip = .error e →
        (∀ current, resolve libs dir (parseChipVariant libs chip).1 = some current →
          dir.profile current ≠ none) →
        ¬ IsNoBlob e → recoveryMode libs dir chip = .error e) ∧
      (∀ profile, loadProfile libs dir chip = .ok profile →
        recoveryMode libs dir chip = .ok profile.recovery) ∧
      (HasLoop (aliasOf libs dir) (parseChipVariant libs chip).1 →
        recoveryMode libs dir chip = .error (.tooDeep chip)) := by
  refine ⟨fun w hname => listed_iff_known hname, avoids_unknown_of_no_variant,
    recoveryMode_of_missing, fun e he hfound hblob => ?_, fun profile hload => ?_,
    fun hloop => recoveryMode_of_loop (isSome_chain_of_loop hloop maxAliasDepth)⟩
  · exact recoveryMode_of_error he (avoids_noProfile hfound e he) hblob
  · unfold recoveryMode
    rw [hload]

/-! ## A directory -/

def camText : Text :=
  "\x7b\"name\": \"cam\", \"RECOVERY\": \"usb\", ".toList ++
    "\"variants\": \x7b\"emmc\": \x7b\x7d\x7d\x7d".toList

def camVariants : List (Text × Json) := [("emmc".toList, .obj [])]

def camMembers : List (Text × Json) :=
  [("name".toList, .str "cam".toList), ("RECOVERY".toList, .str "usb".toList),
    (variantsKey, .obj camVariants)]

/-- The profile of a USB chip; any other profile is refused here. -/
def camFields (data : Dict Text Json) : Except PyFailure SoCProfile :=
  match Dict.get? data "name".toList, Dict.get? data "RECOVERY".toList with
  | some (.str name), some (.str recovery) =>
      if recovery = "usb".toList then .ok ⟨name, .usb, none, none, none, none, none, none⟩
      else .error .fieldErrors
  | _, _ => .error .fieldErrors

/-- The libraries, as far as ASCII names and the one profile go. -/
def camLibs : Libraries where
  chars := PyChars.ascii
  lower := List.map Char.toLower
  loads content := if content = camText then .ok (.obj camMembers) else .error .jsonDecodeError
  fields := camFields

/-- A profile, an alias for a file that does not exist, and an alias for itself. -/
def camDir : ProfilesDir where
  profile name :=
    if name = "cam".toList then some (.ok camText)
    else if name = "old".toList then some (.ok "gone.json".toList)
    else if name = "ring".toList then some (.ok "ring.json".toList)
    else none
  sibling _ _ := none

lemma resolve_cam : resolve camLibs camDir "cam".toList = some "cam".toList := by decide +kernel

lemma declaresVariants_cam : DeclaresVariants camLibs camDir "cam".toList := by
  have hstrip : camLibs.chars.strip camText = camText := by decide +kernel
  have hloads : camLibs.loads (camLibs.chars.strip camText) = .ok (.obj camMembers) := by
    rw [hstrip]
    show (if camText = camText then Except.ok (Json.obj camMembers)
      else .error .jsonDecodeError) = .ok (.obj camMembers)
    exact if_pos rfl
  exact ⟨camVariants, ⟨"cam".toList, camText, camMembers, resolve_cam, rfl, hloads, rfl⟩,
    List.cons_ne_nil _ _⟩

/-- `cam:EMMC` is loaded, and `emmc` is what is listed; `old` is an alias for nothing, and is taken
for a UART chip. -/
theorem profile_lookups_disagree :
    (¬ ((∃ names, listVariants camLibs camDir "cam".toList = .ok names ∧ "EMMC".toList ∈ names) ↔
        Avoids IsUnknownVariant (loadProfile camLibs camDir "cam:EMMC".toList) ∧
          DeclaresVariants camLibs camDir "cam".toList)) ∧
      camDir.profile "old".toList ≠ none ∧
      recoveryMode camLibs camDir "old".toList = .ok .uart := by
  have hlist : listVariants camLibs camDir "cam".toList = .ok ["emmc".toList] := by
    decide +kernel
  have hload : loadProfile camLibs camDir "cam:EMMC".toList =
      .ok ⟨"cam".toList, .usb, none, none, none, none, none, none⟩ := by decide +kernel
  refine ⟨fun h => ?_, by decide +kernel, by decide +kernel⟩
  obtain ⟨names, hnames, hmem⟩ := h.mpr ⟨hload ▸ avoids_ok _, declaresVariants_cam⟩
  obtain rfl := Except.ok.inj (hlist.symm.trans hnames)
  exact absurd hmem (by decide)

theorem profile_lookups_agree_cam :
    ((∃ names, listVariants camLibs camDir "cam".toList = .ok names ∧ "emmc".toList ∈ names) ↔
        Avoids IsUnknownVariant
            (loadProfile camLibs camDir ("cam".toList ++ ':' :: "EMMC".toList)) ∧
          DeclaresVariants camLibs camDir "cam".toList) ∧
      Avoids IsUnknownVariant (loadProfile camLibs camDir ("cam".toList ++ ':' :: [])) ∧
      recoveryMode camLibs camDir "gone".toList = .ok .uart ∧
      recoveryMode camLibs camDir "cam:nor".toList =
        .error (.unknownVariant "nor".toList "cam".toList ["emmc".toList]) ∧
      recoveryMode camLibs camDir "cam".toList = .ok .usb ∧
      recoveryMode camLibs camDir "ring".toList = .error (.tooDeep "ring".toList) := by
  have hnor : loadProfile camLibs camDir "cam:nor".toList =
      .error (.unknownVariant "nor".toList "cam".toList ["emmc".toList]) := by decide +kernel
  have hnorFound : ∀ current,
      resolve camLibs camDir (parseChipVariant camLibs "cam:nor".toList).1 = some current →
        camDir.profile current ≠ none := by
    intro current hcurrent
    have hbase : (parseChipVariant camLibs "cam:nor".toList).1 = "cam".toList := by
      decide +kernel
    rw [hbase, resolve_cam] at hcurrent
    obtain rfl := Option.some.inj hcurrent
    decide +kernel
  have hnorBlob : ¬ IsNoBlob (.unknownVariant "nor".toList "cam".toList ["emmc".toList]) := by
    rintro ⟨_, _, h⟩
    cases h
  have hcam : loadProfile camLibs camDir "cam".toList =
      .ok ⟨"cam".toList, .usb, none, none, none, none, none, none⟩ := by decide +kernel
  have hring : HasLoop (aliasOf camLibs camDir) (parseChipVariant camLibs "ring".toList).1 :=
    ⟨0, 1, "ring".toList, Nat.one_pos, by decide +kernel, by decide +kernel⟩
  exact ⟨(profile_lookups_agree camLibs camDir "cam".toList "EMMC".toList).1 "emmc".toList
      (by decide +kernel),
    (profile_lookups_agree camLibs camDir "cam".toList []).2.1 (by decide +kernel),
    (profile_lookups_agree camLibs camDir "gone".toList []).2.2.1 (by decide +kernel),
    (profile_lookups_agree camLibs camDir "cam:nor".toList []).2.2.2.1 _ hnor hnorFound hnorBlob,
    (profile_lookups_agree camLibs camDir "cam".toList []).2.2.2.2.1 _ hcam,
    (profile_lookups_agree camLibs camDir "ring".toList []).2.2.2.2.2 hring⟩

end Profiles

end Defib

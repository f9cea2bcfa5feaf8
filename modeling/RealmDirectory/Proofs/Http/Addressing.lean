import Mathlib
import RealmDirectory.Proofs.Http.Serving
import RealmDirectory.Proofs.Text.Splitting
import RealmDirectory.Proofs.Url.Encoding

/-!
# How users are addressed

A user is addressed by a path with the realm and the identifier in segments of their own, where
encodings are undone. Identifiers come from a table that somebody else keeps, so they can be any
text. A text always has a segment that stands for it, and usually many; which route a path takes
is decided by how the segment is written. One word means something else: `count`, as it is written
here, is the number of users. A user with that identifier is addressed by another way to write it.

## Main definitions

* `Route.StandsFor`: a segment of a path stands for a text.
* `Route.segmentOf`: the usual segment of a text.
* `Route.userPath`: the path of a user.

## Main results

* `Route.standsFor_encode`: every text has a segment that stands for it.
* `Route.pattern?_userPath`: which paths of users are captured by another route.
* `Service.respond_to_countWord`, `Service.respond_to_countWord_of_ne`: what requests for the plain
  word are answered.
* `Service.respond_to_user`: what requests for users are answered.
-/

namespace RealmDirectory

/-! ### Segments -/

namespace Percent

/-- The characters that are encoded in a segment by itself: all but letters and digits of ASCII
and four signs. -/
def inSegment (c : Char) : Bool := !(c.isAlphanum || ['-', '.', '_', '~'].contains c)

/-- **A text comes back when its encoding is undone**, when percent signs are encoded too. -/
theorem decode_encode_of_percent {set : Char → Bool} (h : set '%' = true) (s : List Char) :
    decode (Text.utf8Bytes (encode set s)) = Text.utf8Bytes s := by
  induction s with
  | nil => rfl
  | cons c r ih =>
      have hsplit : Text.utf8Bytes (c :: r) = String.utf8EncodeChar c ++ Text.utf8Bytes r := rfl
      cases hc : set c with
      | true => rw [encode_cons_of_mem hc, decode_encodeBytes, ih, hsplit]
      | false =>
          have hne : c ≠ '%' := by
            rintro rfl
            exact Bool.false_ne_true (hc.symm.trans h)
          rw [encode_cons_of_notMem hc, decode_plain fun heq => absurd heq hne, ih, hsplit]

/-- Only characters of ASCII need no encoding. -/
theorem lt_of_inSegment {c : Char} (h : inSegment c = false) : c.toNat < 0x80 := by
  simp only [inSegment, Char.isAlphanum, Char.isAlpha, Char.isUpper, Char.isLower, Char.isDigit,
    Bool.not_eq_false', Bool.or_eq_true, Bool.and_eq_true, decide_eq_true_eq, ge_iff_le,
    List.contains_eq_mem, List.mem_cons, List.not_mem_nil, or_false, UInt32.le_iff_toNat_le] at h
  change c.val.toNat < 0x80
  rcases h with ((⟨-, h⟩ | ⟨-, h⟩) | ⟨-, h⟩) | rfl | rfl | rfl | rfl
  · exact Nat.lt_of_le_of_lt h (by decide)
  · exact Nat.lt_of_le_of_lt h (by decide)
  · exact Nat.lt_of_le_of_lt h (by decide)
  all_goals decide

/-- Hexadecimal digits need no encoding. -/
theorem inSegment_of_isHex {c : Char} (h : isHex c = true) : inSegment c = false := by
  have hall : ∀ n < 0x67, isHex (Char.ofNat n) = true → inSegment (Char.ofNat n) = false := by
    decide
  rw [← Char.ofNat_toNat c] at h ⊢
  have hlt := (toNat_of_isHex h).2
  rw [Char.ofNat_toNat] at hlt
  exact hall c.toNat (Nat.lt_succ_of_le hlt) h

/-- What stands in a segment by itself. -/
theorem mem_encode_inSegment {s : List Char} {c : Char} (h : c ∈ encode inSegment s) :
    c = '%' ∨ inSegment c = false := by
  rcases mem_encode h with ⟨-, hc⟩ | hc | hc
  · exact .inr hc
  · exact .inl hc
  · exact .inr (inSegment_of_isHex hc)

end Percent

namespace Route

/-- A segment of a path stands for a text: there is no slash in it, and the text is what comes of
undoing its encodings. -/
structure StandsFor (segment : List Char) (s : String) : Prop where
  notMem : '/' ∉ segment
  decode : decode? segment = some s

/-- The usual segment of a text. -/
def segmentOf (s : String) : List Char := Percent.encode Percent.inSegment s.toList

/-- **Every text has a segment that stands for it**, whichever characters are encoded, as long as
slashes and percent signs are among them. -/
theorem standsFor_encode {set : Char → Bool} (hslash : set '/' = true) (hpercent : set '%' = true)
    (s : String) : StandsFor (Percent.encode set s.toList) s where
  notMem h := by
    rcases Percent.mem_encode h with ⟨-, hc⟩ | hc | hc
    · exact Bool.false_ne_true (hc.symm.trans hslash)
    · exact absurd hc (by decide)
    · exact absurd hc (by decide)
  decode := by
    rw [decode?, Percent.decode_encode_of_percent hpercent, Text.ofUtf8?_utf8Bytes,
      Option.map_some, String.ofList_toList]

theorem standsFor_segmentOf (s : String) : StandsFor (segmentOf s) s :=
  standsFor_encode rfl rfl s

/-- A segment stands for one text. -/
theorem StandsFor.unique {segment : List Char} {s t : String} (hs : StandsFor segment s)
    (ht : StandsFor segment t) : s = t :=
  Option.some.inj (hs.decode.symm.trans ht.decode)

/-- The segment of a text is written as a word that needs no encoding only if it is this word. -/
theorem segmentOf_eq_iff {s word : String} (h : ∀ c ∈ word.toList, Percent.inSegment c = false) :
    segmentOf s = word.toList ↔ s = word := by
  have hword : segmentOf word = word.toList := Percent.encode_eq_self h
  constructor
  · intro hs
    refine (standsFor_segmentOf s).unique ?_
    rw [hs, ← hword]
    exact standsFor_segmentOf word
  · rintro rfl
    exact hword

/-! ### Paths -/

/-- The path of a user, with the segments of the realm and of the identifier. -/
def userPath (realm id : List Char) : List Char :=
  ['/'].intercalate [[], "realms".toList, realm, "users".toList, id]

/-- The segment that means the number of users. -/
def countWord : List Char := "count".toList

theorem countWord_inSegment : ∀ c ∈ countWord, Percent.inSegment c = false :=
  List.forall_iff_forall_mem.mp (by decide)

theorem splitOn_userPath {realm id : List Char} (hrealm : '/' ∉ realm) (hid : '/' ∉ id) :
    Text.splitOn '/' (userPath realm id) =
      [[], "realms".toList, realm, "users".toList, id] := by
  refine Text.splitOn_intercalate (List.cons_ne_nil _ _) ?_
  simp [hrealm, hid]

/-- **Which paths of users are captured**: the one with the word for the number of users, as it
is written, and no other. A path without an identifier is no path of a user. -/
theorem pattern?_userPath {realm id : List Char} (hrealm : '/' ∉ realm) (hid : '/' ∉ id) :
    pattern? (userPath realm id) =
      if id = countWord then some (.whole realm .count)
      else if id = [] then none else some (.part realm .user id) := by
  have hother : ¬ ("users".toList = "credentials".toList ∧ id = "validate".toList) :=
    fun h => absurd h.1 (by decide)
  have hsplit : pattern? (userPath realm id) = patternOf? realm ["users".toList, id] := by
    rw [pattern?, splitOn_userPath hrealm hid]
    exact if_pos rfl
  rw [hsplit, patternOf?, if_neg hother]
  by_cases hcount : id = countWord
  · rw [if_pos hcount, if_pos ⟨rfl, hcount⟩]
  by_cases hempty : id = []
  · rw [if_neg hcount, if_pos hempty, if_neg fun h => hcount h.2, if_neg fun h => h.2 hempty]
  · rw [if_neg hcount, if_neg hempty, if_neg fun h => hcount h.2, if_pos ⟨rfl, hempty⟩]

/-- The plain word is captured in every realm. -/
theorem pattern?_countWord {realm : List Char} (hrealm : '/' ∉ realm) :
    pattern? (userPath realm countWord) = some (.whole realm .count) := by
  rw [pattern?_userPath hrealm (by decide), if_pos rfl]

/-- What stands in a segment by itself can stand in the path of a request, and does not end it. -/
theorem inPath_of_mem_segmentOf {s : String} {c : Char} (h : c ∈ segmentOf s) :
    Target.inPath c = true ∧ c ≠ '#' ∧ c ≠ '?' := by
  rcases Percent.mem_encode_inSegment h with rfl | hc
  · decide
  have hall : ∀ n < 0x80, Percent.inSegment (Char.ofNat n) = false →
      Target.inPath (Char.ofNat n) = true ∧ Char.ofNat n ≠ '#' ∧ Char.ofNat n ≠ '?' := by decide
  have hchar := hall c.toNat (Percent.lt_of_inSegment hc)
  rw [Char.ofNat_toNat] at hchar
  exact hchar hc

/-- **The path of a user can be asked for as it is**, when its segments are the usual ones. -/
theorem ofText?_userPath (realm id : String) :
    let path := userPath (segmentOf realm) (segmentOf id)
    Target.ofText? (String.ofList path) = some ⟨path, []⟩ := by
  intro path
  have hall : ∀ c ∈ path, Target.inPath c = true ∧ c ≠ '#' ∧ c ≠ '?' := by
    intro c hc
    have hwords : ∀ c ∈ "realms".toList ++ "users".toList,
        Target.inPath c = true ∧ c ≠ '#' ∧ c ≠ '?' :=
      List.forall_iff_forall_mem.mp (by decide)
    rw [List.forall_mem_append] at hwords
    rcases Text.mem_intercalate hc with rfl | ⟨field, hfield, hc⟩
    · decide
    simp only [List.mem_cons, List.not_mem_nil, or_false] at hfield
    rcases hfield with rfl | rfl | rfl | rfl | rfl
    · cases hc
    · exact hwords.1 c hc
    · exact inPath_of_mem_segmentOf hc
    · exact hwords.2 c hc
    · exact inPath_of_mem_segmentOf hc
  have hwhole : path.takeWhile (· != '#') = path :=
    List.takeWhile_eq_self_iff.mpr fun c hc => bne_iff_ne.mpr (hall c hc).2.1
  have hpath : path.takeWhile (· != '?') = path ∧ path.dropWhile (· != '?') = [] := by
    have hno : ∀ c ∈ path, (c != '?') = true := fun c hc => bne_iff_ne.mpr (hall c hc).2.2
    exact ⟨List.takeWhile_eq_self_iff.mpr hno, List.dropWhile_eq_nil_iff.mpr hno⟩
  have hvalid : path.all Target.inPath = true := List.all_eq_true.mpr fun c hc => (hall c hc).1
  simp only [Target.ofText?, String.toList_ofList, hwhole, hpath.1, hpath.2, hvalid]
  rfl

/-- The segment of a text in which every character is encoded. -/
def encodedSegment (s : String) : List Char := Percent.encode (fun _ => true) s.toList

/-- **Every text can be addressed**: some segment stands for it and is not the word that means
something else. -/
theorem standsFor_encodedSegment (s : String) :
    StandsFor (encodedSegment s) s ∧ encodedSegment s ≠ countWord := by
  refine ⟨standsFor_encode rfl rfl s, fun h => ?_⟩
  have ho : 'o' ∈ Percent.encode (fun _ => true) s.toList := by
    rw [← encodedSegment, h]
    decide
  rcases Percent.mem_encode ho with ⟨-, hc⟩ | hc | hc <;> exact absurd hc (by decide)

end Route

/-! ### Responses -/

/-- Users may be removed from a directory when its configuration says so. -/
theorem RealmConfig.allowDelete_of_templateSet {config : RealmConfig} {queries : TemplateSet}
    (h : config.templateSet = .ok queries) : queries.allowDelete = config.allowDelete := by
  rw [templateSet] at h
  cases hengine : HashEngine.ofName config.queries.hashFunction with
  | error f =>
      rw [hengine] at h
      cases h
  | ok engine =>
      rw [hengine] at h
      obtain rfl := Except.ok.inj h
      rfl

namespace Service

open Route

variable {s s' : Service} {realm id : String} {r : Repository Service} {f : Failure}
  {realmSegment segment : List Char} {request : Request} {salt : Salt}

/-- A request that a resource knows is answered for the route of its path. -/
theorem respond_of_route {pattern : Pattern} {route : Route} (hmethod : request.method ≠ .head)
    (hpattern : pattern? request.target.path = some pattern)
    (hallows : allows request.method (resourceOf pattern) = true)
    (hroute : ofPattern? pattern = some route) :
    respond salt request s = answer salt request route.realm route.resource s := by
  have hfully : respondFully salt request = answer salt request route.realm route.resource := by
    simp only [respondFully, hpattern, hallows, hroute]
    rfl
  rw [respond_eq, if_neg hmethod, hfully]
  rfl

/-- **A request that its resource does not know** is answered with a status and nothing else, and
changes nothing: the segments of its path are not looked at. -/
theorem respond_of_not_allows {pattern : Pattern}
    (hpattern : pattern? request.target.path = some pattern)
    (hallows : allows request.method (resourceOf pattern) = false) :
    respond salt request s = (.bare 405, s) := by
  have hfully : respondFully salt request = pure (.bare 405) := by
    simp only [respondFully, hpattern, hallows]
    rfl
  have hbare : (Response.bare 405).withoutBody = .bare 405 := rfl
  rw [respond_eq, hfully]
  show (if request.method = .head then (Response.bare 405).withoutBody else .bare 405, s) = _
  rw [hbare, ite_self]

/-- An operation on the repository of a realm settles with the failure of the realm. -/
theorem settle_repository_of_error {operation : Repository Service → Session Service Response}
    (h : repository realm s = (.error f, s')) :
    settle (repository realm >>= operation) s = (.ofFailure f, s') := by
  rw [settle_eq, Session.bind_error h]

/-- A lookup settles with the record that is found, or says that there is none. -/
theorem settle_findUser (h : repository realm s = (.ok r, s'))
    (find : Repository Service → String → StateM Service (Option UserRecord)) :
    settle (findUser realm id find) s =
      match find r id s' with
      | (some u, s'') => (.ok (recordJson u), s'')
      | (none, s'') => (.problem 404 ("User not found: " ++ id), s'') := by
  have hfound : surely (find r id) s' = (.ok (find r id s').1, (find r id s').2) := rfl
  rw [settle_eq, findUser, Session.bind_ok h, Session.bind_ok hfound]
  rcases find r id s' with ⟨_ | u, s''⟩ <;> rfl

/-- A removal settles with the policy of the realm. -/
theorem settle_removeUser (h : repository realm s = (.ok r, s')) :
    settle (removeUser realm) s = (.okMember "removed" (.bool r.allowsRemoval), s') := by
  rw [settle_eq, removeUser, Session.bind_ok h]
  rfl

/-- The plain word is answered with the number of users. -/
theorem respond_to_countWord (hmethod : request.method = .get)
    (hpath : request.target.path = userPath realmSegment countWord)
    (hrealm : StandsFor realmSegment realm) :
    respond salt request s = settle (countUsers realm (answer.fields request)) s := by
  have hpattern : pattern? request.target.path = some (.whole realmSegment .count) :=
    hpath ▸ pattern?_countWord hrealm.notMem
  have hroute : ofPattern? (.whole realmSegment .count) = some ⟨realm, .count⟩ := by
    rw [ofPattern?, hrealm.decode]
    rfl
  exact respond_of_route (by simp [hmethod]) hpattern (hmethod ▸ rfl) hroute

/-- **The plain word knows no other method.** Deleting it is answered with the status 405 alone,
and so is every request that does not get the number of users or its headers: the policy of the
realm, which deleting a user answers, is not asked for, and nothing changes. -/
theorem respond_to_countWord_of_ne (hget : request.method ≠ .get) (hhead : request.method ≠ .head)
    (hpath : request.target.path = userPath realmSegment countWord) (hrealm : '/' ∉ realmSegment) :
    respond salt request s = (.bare 405, s) := by
  have hpattern : pattern? request.target.path = some (.whole realmSegment .count) :=
    hpath ▸ pattern?_countWord hrealm
  have hallows : allows request.method .count = false := by
    cases hmethod : request.method with
    | get => exact absurd hmethod hget
    | head => exact absurd hmethod hhead
    | post | put | delete | other => rfl
  exact respond_of_not_allows hpattern hallows

/-- A count settles with the number that the repository gives. -/
theorem settle_countUsers {fields : KeyedList String String} {search : Search}
    (hsearch : Search.ofFields fields = .ok search) (h : repository realm s = (.ok r, s')) :
    (settle (countUsers realm fields) s).1 =
      .okMember "count" (.whole (r.getCount search.criteria s').1.toInt) := by
  have hcounted : surely (r.getCount search.criteria) s' =
      (.ok (r.getCount search.criteria s').1, (r.getCount search.criteria s').2) := rfl
  rw [settle_eq, countUsers, hsearch, Session.ofExcept_ok_bind, Session.bind_ok h,
    Session.bind_ok hcounted]
  rfl

/-- **Requests for users**, in every service that comes about from configured realms:

1. for a known realm and an identifier that is not empty, written as one segment in any way but
   the plain word `count`, what is asked for is the repository of the realm. If it cannot be
   opened, the response tells why. Otherwise it was made from the configuration that is stored for
   the realm; getting the user answers the record that is found by the identifier, or else that
   there is none; and deleting the user answers what the configuration says about that;
2. a path of a user is captured by another route only when its segment is the plain word, and
   getting that answers the number of users (deleting it is refused, which is
   `respond_to_countWord_of_ne`);
3. every text has a segment that stands for it and is not the plain word. The usual one is the
   plain word for the text `count` alone, and goes into the target of a request as it is. -/
theorem respond_to_user {realms : List RealmConfig} {s : Service} (hs : Reached realms s)
    (salt : Salt) :
    (∀ realm config id, s.registry.realms.get? realm = some config → id ≠ "" →
      ∀ realmSegment segment, StandsFor realmSegment realm → StandsFor segment id →
      segment ≠ countWord →
      ∀ request : Request, request.target.path = userPath realmSegment segment →
        (∀ f s', repository realm s = (.error f, s') →
          (s.registry.openInstance reply config).1 = .error f ∧
            (request.method = .get ∨ request.method = .delete →
              respond salt request s = (.ofFailure f, s'))) ∧
        ∀ r s', repository realm s = (.ok r, s') → config.templateSet = .ok r.queries ∧
          (request.method = .get → respond salt request s =
            match r.findById id s' with
            | (some u, s'') => (.ok (recordJson u), s'')
            | (none, s'') => (.problem 404 ("User not found: " ++ id), s'')) ∧
          (request.method = .delete → respond salt request s =
            (.okMember "removed" (.bool config.allowDelete), s'))) ∧
    (∀ realmSegment segment, '/' ∉ realmSegment → '/' ∉ segment → segment ≠ [] →
      pattern? (userPath realmSegment segment) =
        if segment = countWord then some (.whole realmSegment .count)
        else some (.part realmSegment .user segment)) ∧
    (∀ realm realmSegment, StandsFor realmSegment realm → ∀ request : Request,
      request.method = .get → request.target.path = userPath realmSegment countWord →
        respond salt request s = settle (countUsers realm (answer.fields request)) s) ∧
    ∀ realm id : String,
      StandsFor (encodedSegment id) id ∧ encodedSegment id ≠ countWord ∧
      StandsFor (segmentOf id) id ∧ (segmentOf id = countWord ↔ id = "count") ∧
      Target.ofText? (String.ofList (userPath (segmentOf realm) (segmentOf id))) =
        some ⟨userPath (segmentOf realm) (segmentOf id), []⟩ := by
  refine ⟨?users, fun realmSegment segment hrealm hsegment hne => ?captured, ?count,
    fun realm id => ⟨(standsFor_encodedSegment id).1, (standsFor_encodedSegment id).2,
      standsFor_segmentOf id, segmentOf_eq_iff countWord_inSegment, ofText?_userPath realm id⟩⟩
  case captured => rw [pattern?_userPath hrealm hsegment, if_neg hne]
  case count =>
    exact fun realm realmSegment hrealm request hmethod hpath =>
      respond_to_countWord hmethod hpath hrealm
  case users =>
    intro realm config id hknown hid realmSegment segment hrealm hsegment hcount request hpath
    have hne : segment ≠ [] := by
      rintro rfl
      exact hid (hsegment.unique (standsFor_segmentOf ""))
    have hpattern : pattern? request.target.path = some (.part realmSegment .user segment) := by
      rw [hpath, pattern?_userPath hrealm.notMem hsegment.notMem, if_neg hcount, if_neg hne]
    have hroute : ofPattern? (.part realmSegment .user segment) = some ⟨realm, .user id⟩ := by
      simp only [ofPattern?, hrealm.decode, hsegment.decode]
      rfl
    have hget (hmethod : request.method = .get) :
        respond salt request s = settle (findUser realm id Repository.findById) s := by
      rw [respond_of_route (by simp [hmethod]) hpattern (hmethod ▸ rfl) hroute, answer, hmethod,
        if_neg (by decide)]
    have hdelete (hmethod : request.method = .delete) :
        respond salt request s = settle (removeUser realm) s := by
      rw [respond_of_route (by simp [hmethod]) hpattern (hmethod ▸ rfl) hroute, answer,
        if_pos hmethod]
    rcases repository_of_known hs.isConsistent hknown with ⟨f, hopen, hf⟩ | ⟨i, -, hqueries, hi⟩
    · refine ⟨fun f' s' hf' => ?_, fun r s' hr => by cases hf.symm.trans hr⟩
      obtain ⟨herror, rfl⟩ := Prod.mk.inj (hf.symm.trans hf')
      obtain rfl := Except.error.inj herror
      refine ⟨hopen, ?_⟩
      rintro (hmethod | hmethod)
      · exact (hget hmethod).trans (settle_repository_of_error hf)
      · exact (hdelete hmethod).trans (settle_repository_of_error hf)
    · refine ⟨fun f' s' hf' => (by cases hi.symm.trans hf'), fun r s' hr => ?_⟩
      obtain ⟨hok, rfl⟩ := Prod.mk.inj (hi.symm.trans hr)
      obtain rfl := Except.ok.inj hok
      refine ⟨hqueries, fun hmethod => (hget hmethod).trans (settle_findUser hi _),
        fun hmethod => ?_⟩
      rw [hdelete hmethod, settle_removeUser hi, ← RealmConfig.allowDelete_of_templateSet hqueries]
      rfl

/-- A realm with one user for every identifier, and where users may be removed: the identifier
`count` is answered as any other one when every character of it is encoded. -/
theorem respond_to_user_encoded_count :
    let staff : RealmConfig :=
      { id := "staff", database := Backend.inMemory, allowDelete := true
        queries := { findById := "select 'ALICE' login" } }
    let s := ofRealms [staff]
    let target : Target := ⟨userPath (segmentOf "staff") (encodedSegment "count"), []⟩
    let salt : Salt := Vector.replicate 16 7
    (∃ u : UserRecord, u.entries = [("login", "ALICE")] ∧
        (respond salt { method := .get, target } s).1 = .ok (recordJson u)) ∧
      (respond salt { method := .delete, target } s).1 = .okMember "removed" (.bool true) := by
  intro staff s target salt
  have hs : Reached [staff] s := .start
  obtain ⟨hrequests, -, -, hsegments⟩ := respond_to_user hs salt
  obtain ⟨hsegment, hplain, -⟩ := hsegments "staff" "count"
  have hanswers (method : Method) := (hrequests "staff" staff "count" rfl (by decide)
    (segmentOf "staff") (encodedSegment "count") (standsFor_segmentOf _) hsegment hplain
    { method, target } rfl).2
  have hfound : (match repository "staff" s with
      | (.ok r, s') => (r.findById "count" s').1.map KeyedList.entries
      | (.error _, _) => none) = some [("login", "ALICE")] := by decide +kernel
  rcases hrepository : repository "staff" s with ⟨f | r, s'⟩
  · rw [hrepository] at hfound
    cases hfound
  · obtain ⟨-, hget, -⟩ := hanswers .get r s' hrepository
    obtain ⟨-, -, hdelete⟩ := hanswers .delete r s' hrepository
    rw [hget rfl, hdelete rfl]
    rw [hrepository] at hfound
    obtain ⟨u, hu, hentries⟩ := Option.map_eq_some_iff.mp hfound
    rcases hlookup : r.findById "count" s' with ⟨found, s''⟩
    obtain rfl : found = some u := (congrArg Prod.fst hlookup).symm.trans hu
    exact ⟨⟨u, hentries, rfl⟩, rfl⟩

/-- The identifier `count` in its usual segment is captured: getting the user answers a number,
which is no record of a user, and does not say that there is none either. -/
theorem count_captured :
    let s := ofRealms DirectoryConfig.standard.realms
    let request : Request :=
      { method := .get, target := ⟨userPath (segmentOf "default") (segmentOf "count"), []⟩ }
    let salt : Salt := Vector.replicate 16 7
    (∃ r s', repository "default" s = (.ok r, s')) ∧
      (∃ n, (respond salt request s).1 = .okMember "count" (.whole n)) ∧
      (∀ u, (respond salt request s).1 ≠ .ok (recordJson u)) ∧
      (respond salt request s).1 ≠ .problem 404 "User not found: count" := by
  intro s request salt
  have hword : segmentOf "count" = countWord := (segmentOf_eq_iff countWord_inSegment).mpr rfl
  have hpath : request.target.path = userPath (segmentOf "default") countWord := by rw [← hword]
  have hcount : respond salt request s = settle (countUsers "default" (answer.fields request)) s :=
    respond_to_countWord rfl hpath (standsFor_segmentOf _)
  have hopened : (match (repository "default" s).1 with
      | .ok _ => true
      | .error _ => false) = true := by decide +kernel
  rcases hrepository : repository "default" s with ⟨f | r, s'⟩
  · rw [hrepository] at hopened
    cases hopened
  · rw [hcount, settle_countUsers rfl hrepository]
    refine ⟨⟨r, s', rfl⟩, ⟨_, rfl⟩, fun u h => ?_, fun h => ?_⟩
    · simp only [Response.okMember, Response.ok, recordJson, Response.mk.injEq, Body.json.injEq,
        JsonValue.object.injEq, true_and] at h
      obtain ⟨e, others, -, he, -⟩ := List.map_eq_cons_iff.mp h.symm
      cases (Prod.mk.inj he).2
    · cases h

end Service

end RealmDirectory

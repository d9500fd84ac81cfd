import Mathlib.Data.List.TakeWhile
import StarStats.Lib.Text

/-! # Badge images

The images of the badges on a citizen's page are shown by a browser, so an address that is not of RSI
is dropped. The guard takes the text up to the first slash, and of that the text up to the first colon,
for the host; a browser ends the authority also at a backslash, a question mark or a hash, and takes
what stands before the last `@` for the user's name and password. The two agree where neither stands
in the wrong place (`safe_iff`). -/

namespace StarStats.Server.RsiBadges

open List
open StarStats.Lib.Text

/-! ### The guard -/

/-- The host that badges come from. -/
def rsiHost : List Char := "robertsspaceindustries.com".toList

/-- The name is that of RSI or of one of its subdomains, in any case. -/
def isRsiName (name : List Char) : Bool :=
  let lower := name.map Char.toLower
  decide (lower = rsiHost) || ('.' :: rsiHost).isSuffixOf lower

/-- The name before the port. -/
def isRsiHost (host : List Char) : Bool := isRsiName (host.takeWhile (· ≠ ':'))

/-- The text after `https://` up to the first slash. -/
def authority (rest : List Char) : List Char := rest.takeWhile (· ≠ '/')

/-- An encrypted address on that host. -/
def isRsiUrl (absolute : String) : Bool :=
  if startsWith absolute "https://" then isRsiHost (authority (absolute.toList.drop 8)) else false

/-- The source of a picture as it is stored, if it is taken for one of RSI's. -/
def normaliseBadgeSrc (raw : String) : Option String :=
  let trimmed := trim raw
  if trimmed = "" then none
  else if startsWith trimmed "//" then
    let absolute := "https://" ++ String.ofList (trimmed.toList.drop 2)
    if isRsiUrl absolute then some absolute else none
  else if startsWith trimmed "/" then some ("https://robertsspaceindustries.com" ++ trimmed)
  else if startsWith trimmed "https://" then
    if isRsiHost (authority (trimmed.toList.drop 8)) then some trimmed else none
  else none

/-- A badge of the profile page. -/
structure Badge where
  name : String
  imageUrl : Option String
  deriving DecidableEq

/-- The badges of the images of a page, by their alternative texts and sources. -/
def findBadges (imgs : List (Option String × Option String)) : List Badge :=
  imgs.filterMap fun (alt, src) =>
    let alt := (alt.map trim).filter (· ≠ "")
    let src := ((src.map trim).filter (· ≠ "")).bind normaliseBadgeSrc
    alt.map fun name => ⟨name, src⟩

/-! ### The browser -/

/-- Tabs and newlines are removed before anything is parsed. -/
def isRemoved (c : Char) : Bool := c = '\t' || c = '\n' || c = '\r'

/-- Without the characters that a browser removes. -/
def clean (cs : List Char) : List Char := cs.filter (!isRemoved ·)

/-- What ends an authority besides a slash. -/
def isStop (c : Char) : Bool := c = '\\' || c = '?' || c = '#'

/-- What stands behind the last `@`, or everything. -/
def behindAt (cs : List Char) : List Char := (cs.reverse.takeWhile (· ≠ '@')).reverse

/-- The host that a browser contacts for an address over https; nothing for another scheme. -/
def browserHost (url : String) : Option (List Char) :=
  let cs := clean url.toList
  if "https://".toList.isPrefixOf cs then
    some ((behindAt ((cs.drop 8).takeWhile fun c => c ≠ '/' && !isStop c)).takeWhile (· ≠ ':'))
  else none

/-- What is stored for the source, if anything, is an address of RSI. -/
def Safe (src : String) : Prop :=
  ∀ url, normaliseBadgeSrc src = some url → ∃ host, browserHost url = some host ∧ isRsiName host

/-! ### Where they agree -/

/-- The text after `https://` of a source that is not relative to RSI's own origin. -/
def absoluteRest (src : String) : Option (List Char) :=
  let trimmed := trim src
  if startsWith trimmed "//" then some (trimmed.toList.drop 2)
  else if startsWith trimmed "/" then none
  else if startsWith trimmed "https://" then some (trimmed.toList.drop 8)
  else none

/-- What the guard takes for the host. -/
def guardName (auth : List Char) : List Char := auth.takeWhile (· ≠ ':')

/-- What the browser reads of the text behind it. -/
def guardPort (auth : List Char) : List Char := (auth.dropWhile (· ≠ ':')).takeWhile (!isStop ·)

/-- The browser reads the name of RSI: nothing ends the authority within the name the guard has seen,
and no `@` comes after it; or what is left of the name, or comes after the `@`, is one of RSI, too. -/
def BrowserAgrees (auth : List Char) : Prop :=
  if (guardName auth).any isStop then
    isRsiName (behindAt (clean ((guardName auth).takeWhile (!isStop ·))))
  else if '@' ∈ guardPort auth then
    isRsiName ((behindAt (clean (guardPort auth))).takeWhile (· ≠ ':'))
  else true

/-! ### Addresses -/

theorem toList_append_ofList (pre : String) (rest : List Char) :
    (pre ++ String.ofList rest).toList = pre.toList ++ rest := by
  simp

theorem eq_append_drop {s pre : String} (h : startsWith s pre) :
    s = pre ++ String.ofList (s.toList.drop pre.toList.length) := by
  obtain ⟨rest, hrest⟩ := isPrefixOf_iff_prefix.mp h
  rw [← String.toList_inj, toList_append_ofList, ← hrest, drop_left]

/-- The host of an address over https. -/
def hostOf (rest : List Char) : List Char :=
  (behindAt ((clean rest).takeWhile fun c => c ≠ '/' && !isStop c)).takeWhile (· ≠ ':')

theorem browserHost_https (rest : List Char) :
    browserHost ("https://" ++ String.ofList rest) = some (hostOf rest) := by
  have hclean : clean ("https://".toList ++ rest) = "https://".toList ++ clean rest := by
    rw [clean, filter_append]
    rfl
  unfold browserHost
  rw [toList_append_ofList, hclean]
  have hpre : "https://".toList.isPrefixOf ("https://".toList ++ clean rest) = true := by
    refine isPrefixOf_iff_prefix.mpr ?_
    exact prefix_append _ _
  simp only [hpre, if_true]
  rfl

theorem toList_origin :
    "https://robertsspaceindustries.com".toList = "https://".toList ++ rsiHost := by
  decide

theorem origin_append {trimmed : String} (h : startsWith trimmed "/") : ∃ path,
    "https://robertsspaceindustries.com" ++ trimmed =
      "https://" ++ String.ofList (rsiHost ++ '/' :: path) := by
  have hslash : "/".toList = ['/'] := by decide
  rw [startsWith, hslash, isPrefixOf_iff_prefix] at h
  obtain ⟨path, hpath⟩ := h
  refine ⟨path, ?_⟩
  rw [← String.toList_inj, toList_append_ofList, String.toList_append, toList_origin, ← hpath,
    append_assoc, singleton_append]

theorem length_https : "https://".toList.length = 8 := by decide

theorem isRsiUrl_https (rest : List Char) :
    isRsiUrl ("https://" ++ String.ofList rest) = isRsiHost (authority rest) := by
  have hstart : startsWith ("https://" ++ String.ofList rest) "https://" = true := by
    rw [startsWith, toList_append_ofList, isPrefixOf_iff_prefix]
    exact prefix_append _ _
  rw [isRsiUrl, if_pos hstart, toList_append_ofList, ← length_https, drop_left]

theorem eq_https {trimmed : String} (h : startsWith trimmed "https://") :
    trimmed = "https://" ++ String.ofList (trimmed.toList.drop 8) := by
  have heq := eq_append_drop h
  rwa [length_https] at heq

/-- **What is stored**: a path on RSI's own origin, or an absolute address that the guard accepts. -/
theorem normaliseBadgeSrc_eq_some {src url : String} (h : normaliseBadgeSrc src = some url) :
    (∃ path, url = "https://" ++ String.ofList (rsiHost ++ '/' :: path)) ∨
      ∃ rest, absoluteRest src = some rest ∧ isRsiHost (authority rest) ∧
        url = "https://" ++ String.ofList rest := by
  unfold normaliseBadgeSrc at h
  unfold absoluteRest
  generalize trim src = trimmed at h ⊢
  simp only at h ⊢
  split_ifs at h with hempty hproto hrsi hpath hhttps hhost
  · obtain rfl := Option.some.inj h
    rw [isRsiUrl_https] at hrsi
    exact Or.inr ⟨_, by rw [if_pos hproto], hrsi, rfl⟩
  · obtain rfl := Option.some.inj h
    exact Or.inl (origin_append hpath)
  · obtain rfl := Option.some.inj h
    exact Or.inr ⟨_, by rw [if_neg hproto, if_neg hpath, if_pos hhttps], hhost, eq_https hhttps⟩

/-! ### Hosts -/

theorem clean_append (cs ds : List Char) : clean (cs ++ ds) = clean cs ++ clean ds := filter_append _ _

theorem not_mem_clean {c : Char} {cs : List Char} (h : c ∉ cs) : c ∉ clean cs :=
  fun hmem => h (mem_filter.mp hmem).1

/-- Removing tabs and newlines does not move the first character that ends something. -/
theorem takeWhile_clean {p : Char → Bool} (hp : ∀ c, isRemoved c → p c) (cs : List Char) :
    (clean cs).takeWhile p = clean (cs.takeWhile p) := by
  rw [clean, takeWhile_filter, clean]
  congr 2
  funext c
  cases hr : isRemoved c
  · simp
  · simp [hp c hr]

/-- The authority of the browser is within that of the guard. -/
theorem hostOf_eq (rest : List Char) :
    hostOf rest = (behindAt (clean ((authority rest).takeWhile (!isStop ·)))).takeWhile (· ≠ ':') := by
  have hstop : ∀ c, isRemoved c → (decide (c ≠ '/') && !isStop c) = true := by
    intro c hc
    simp only [isRemoved, Bool.or_eq_true, decide_eq_true_eq] at hc
    rcases hc with (rfl | rfl) | rfl <;> decide
  rw [hostOf, takeWhile_clean hstop, authority, takeWhile_takeWhile]
  congr 4
  funext c
  simp [and_comm]

theorem behindAt_append (cs ds : List Char) :
    behindAt (cs ++ ds) = if '@' ∈ ds then behindAt ds else behindAt cs ++ ds := by
  unfold behindAt
  rw [reverse_append, takeWhile_append]
  by_cases h : '@' ∈ ds
  · have hshort : (ds.reverse.takeWhile (· ≠ '@')).length ≠ ds.reverse.length := by
      intro hlen
      have hpre := takeWhile_prefix (fun c => decide (c ≠ '@')) |>.eq_of_length hlen
      have hall := (takeWhile_eq_self_iff (p := fun c => decide (c ≠ '@'))).mp hpre
      exact absurd rfl (of_decide_eq_true (hall '@' (mem_reverse.mpr h)))
    rw [if_neg hshort, if_pos h]
  · have hall : ds.reverse.takeWhile (· ≠ '@') = ds.reverse := by
      refine takeWhile_eq_self_iff.mpr fun c hc => decide_eq_true ?_
      rintro rfl
      exact h (mem_reverse.mp hc)
    rw [if_pos (by rw [hall]), if_neg h, reverse_append, reverse_reverse]

theorem behindAt_subset (cs : List Char) : behindAt cs ⊆ cs := by
  intro c hc
  have hsub := takeWhile_prefix (fun c => decide (c ≠ '@')) |>.subset (mem_reverse.mp hc)
  exact mem_reverse.mp hsub

theorem takeWhile_ne_of_not_mem {c : Char} {cs : List Char} (h : c ∉ cs) :
    cs.takeWhile (· ≠ c) = cs := by
  refine takeWhile_eq_self_iff.mpr fun d hd => decide_eq_true ?_
  rintro rfl
  exact h hd

theorem colon_not_mem_guardName (auth : List Char) : ':' ∉ guardName auth := by
  intro h
  have := mem_takeWhile_imp h
  simp at this

/-- Nothing is left of the guard's name where it is cut. -/
theorem takeWhile_isStop_of_cut {auth : List Char} (h : (guardName auth).any isStop = true) :
    auth.takeWhile (!isStop ·) = (guardName auth).takeWhile (!isStop ·) := by
  have hsplit : guardName auth ++ auth.dropWhile (· ≠ ':') = auth := takeWhile_append_dropWhile
  have hshort : ((guardName auth).takeWhile (!isStop ·)).length ≠ (guardName auth).length := by
    intro hlen
    obtain ⟨c, hc, hstop⟩ := any_eq_true.mp h
    have hpre := takeWhile_prefix (!isStop ·) |>.eq_of_length hlen
    have hall := (takeWhile_eq_self_iff (p := fun c => !isStop c)).mp hpre
    simpa [hstop] using hall c hc
  conv_lhs => rw [← hsplit]
  rw [takeWhile_append, if_neg hshort]

theorem takeWhile_isStop_of_not_cut {auth : List Char} (h : ¬ (guardName auth).any isStop = true) :
    auth.takeWhile (!isStop ·) = guardName auth ++ guardPort auth := by
  have hsplit : guardName auth ++ auth.dropWhile (· ≠ ':') = auth := takeWhile_append_dropWhile
  have hall : (guardName auth).takeWhile (!isStop ·) = guardName auth := by
    refine takeWhile_eq_self_iff.mpr fun c hc => ?_
    have : isStop c ≠ true := fun hstop => h (any_eq_true.mpr ⟨c, hc, hstop⟩)
    simpa using this
  conv_lhs => rw [← hsplit]
  rw [takeWhile_append, if_pos (by rw [hall]), guardPort]

/-- What comes behind the name is empty or begins with the colon. -/
theorem guardPort_cases (auth : List Char) :
    guardPort auth = [] ∨ ∃ port, guardPort auth = ':' :: port := by
  unfold guardPort
  cases hd : auth.dropWhile (· ≠ ':') with
  | nil => exact Or.inl rfl
  | cons c cs =>
    have hc : c = ':' := by
      have hhead := head?_dropWhile_not (fun c => decide (c ≠ ':')) auth
      rw [hd] at hhead
      simpa using hhead
    subst hc
    exact Or.inr ⟨cs.takeWhile (!isStop ·), by simp [isStop]⟩

theorem rsi_chars {c : Char} (h : c.toLower ∈ '.' :: rsiHost) : isRemoved c = false ∧ c ≠ '@' := by
  constructor
  · by_contra hr
    simp only [isRemoved, Bool.not_eq_false, Bool.or_eq_true, decide_eq_true_eq] at hr
    revert h
    rcases hr with (rfl | rfl) | rfl <;> decide
  · rintro rfl
    revert h
    decide

/-- A suffix without tabs, newlines and `@` survives what the browser does. -/
theorem behindAt_clean_append {cs ds : List Char} (h : ∀ c ∈ ds, isRemoved c = false ∧ c ≠ '@') :
    behindAt (clean (cs ++ ds)) = behindAt (clean cs) ++ ds := by
  have hkeep : clean ds = ds := filter_eq_self.mpr fun c hc => by simp [(h c hc).1]
  rw [clean_append, hkeep, behindAt_append, if_neg fun hmem => (h '@' hmem).2 rfl]

/-- The name of RSI stays one behind the name of a user. -/
theorem isRsiName_behindAt {name : List Char} (h : isRsiName name) :
    isRsiName (behindAt (clean name)) := by
  simp only [isRsiName, Bool.or_eq_true, decide_eq_true_eq, isSuffixOf_iff_suffix] at h ⊢
  rcases h with h | ⟨pre, hsuf⟩
  · left
    have hchars : ∀ c ∈ name, isRemoved c = false ∧ c ≠ '@' := fun c hc =>
      rsi_chars (mem_cons_of_mem _ (h ▸ mem_map_of_mem hc))
    have hkeep := @behindAt_clean_append [] name hchars
    rw [nil_append] at hkeep
    rw [hkeep]
    exact h
  · right
    obtain ⟨init, rest, rfl, -, hrest⟩ := map_eq_append_iff.mp hsuf.symm
    have hchars : ∀ c ∈ rest, isRemoved c = false ∧ c ≠ '@' := fun c hc =>
      rsi_chars (hrest ▸ mem_map_of_mem hc)
    rw [behindAt_clean_append hchars, map_append, hrest]
    exact suffix_append _ _

theorem takeWhile_colon_append {cs ds : List Char} (hcs : ':' ∉ cs)
    (hds : ds = [] ∨ ∃ port, ds = ':' :: port) : (cs ++ ds).takeWhile (· ≠ ':') = cs := by
  have hall := takeWhile_ne_of_not_mem hcs
  rw [takeWhile_append, if_pos (by rw [hall])]
  rcases hds with rfl | ⟨port, rfl⟩ <;> simp

/-- **The host of an address that the guard accepts is RSI exactly where the browser agrees.** -/
theorem isRsiName_hostOf {rest : List Char} (h : isRsiHost (authority rest)) :
    isRsiName (hostOf rest) ↔ BrowserAgrees (authority rest) := by
  have hname : isRsiName (guardName (authority rest)) := h
  have hcolon := colon_not_mem_guardName (authority rest)
  rw [hostOf_eq, BrowserAgrees]
  generalize authority rest = auth at hname hcolon ⊢
  by_cases hcut : (guardName auth).any isStop = true
  · rw [if_pos hcut, takeWhile_isStop_of_cut hcut, takeWhile_ne_of_not_mem]
    intro hmem
    have hin := (mem_filter.mp (behindAt_subset _ hmem)).1
    have hsub := takeWhile_prefix (!isStop ·) |>.subset hin
    exact hcolon hsub
  · rw [if_neg hcut, takeWhile_isStop_of_not_cut hcut, clean_append, behindAt_append]
    have hat : '@' ∈ clean (guardPort auth) ↔ '@' ∈ guardPort auth := by
      simp [clean, isRemoved]
    by_cases huser : '@' ∈ guardPort auth
    · rw [if_pos (hat.2 huser), if_pos huser]
    · rw [if_neg (fun hmem => huser (hat.1 hmem)), if_neg huser, takeWhile_colon_append]
      · exact iff_of_true (isRsiName_behindAt hname) rfl
      · exact fun hmem => not_mem_clean hcolon (behindAt_subset _ hmem)
      · rcases guardPort_cases auth with hport | ⟨port, hport⟩
        · exact Or.inl (by rw [hport]; rfl)
        · exact Or.inr ⟨clean port, by rw [hport]; rfl⟩

/-- A path on RSI's own origin is an address of RSI. -/
theorem isRsiName_hostOf_origin (path : List Char) : isRsiName (hostOf (rsiHost ++ '/' :: path)) := by
  have hauth : authority (rsiHost ++ '/' :: path) = rsiHost := by
    have hall : rsiHost.takeWhile (· ≠ '/') = rsiHost := by decide
    rw [authority, takeWhile_append, if_pos (by rw [hall])]
    simp
  rw [hostOf_eq, hauth]
  decide

theorem normaliseBadgeSrc_of_absolute {src : String} {rest : List Char}
    (habs : absoluteRest src = some rest) (h : isRsiHost (authority rest)) :
    normaliseBadgeSrc src = some ("https://" ++ String.ofList rest) := by
  unfold absoluteRest at habs
  unfold normaliseBadgeSrc
  generalize trim src = trimmed at habs ⊢
  simp only at habs ⊢
  have hne : trimmed ≠ "" := by
    rintro rfl
    have hproto : startsWith "" "//" = false := by decide
    have hpath : startsWith "" "/" = false := by decide
    have hhttps : startsWith "" "https://" = false := by decide
    simp [hproto, hpath, hhttps] at habs
  rw [if_neg hne]
  split_ifs at habs with hproto hpath hhttps
  · obtain rfl := Option.some.inj habs
    rw [if_pos hproto, isRsiUrl_https, if_pos h]
  · obtain rfl := Option.some.inj habs
    rw [if_neg hproto, if_neg hpath, if_pos hhttps, if_pos h, ← eq_https hhttps]

/-- **What is stored for a source is an address of RSI exactly if the browser agrees with the guard on
the source's authority**; a source that is refused, or relative to RSI's own origin, always is. -/
theorem safe_iff (src : String) : Safe src ↔ ∀ rest, absoluteRest src = some rest →
    isRsiHost (authority rest) → BrowserAgrees (authority rest) := by
  constructor
  · intro hsafe rest habs h
    obtain ⟨host, hhost, hname⟩ := hsafe _ (normaliseBadgeSrc_of_absolute habs h)
    rw [browserHost_https] at hhost
    obtain rfl := Option.some.inj hhost
    exact (isRsiName_hostOf h).1 hname
  · intro hagrees url hurl
    rcases normaliseBadgeSrc_eq_some hurl with ⟨path, rfl⟩ | ⟨rest, habs, h, rfl⟩
    · exact ⟨_, browserHost_https _, isRsiName_hostOf_origin path⟩
    · exact ⟨_, browserHost_https _, (isRsiName_hostOf h).2 (hagrees rest habs h)⟩

/-- The images of stored badges come from the guard. -/
theorem exists_src_of_mem_findBadges {imgs : List (Option String × Option String)} {b : Badge}
    (hb : b ∈ findBadges imgs) {url : String} (hurl : b.imageUrl = some url) :
    ∃ alt src, (alt, some src) ∈ imgs ∧ normaliseBadgeSrc (trim src) = some url := by
  obtain ⟨⟨alt, src⟩, hmem, himg⟩ := mem_filterMap.mp hb
  obtain ⟨name, -, rfl⟩ := Option.map_eq_some_iff.mp himg
  obtain ⟨s, hs, hnorm⟩ := Option.bind_eq_some_iff.mp hurl
  obtain ⟨hmap, -⟩ := Option.filter_eq_some_iff.mp hs
  obtain ⟨raw, hraw, rfl⟩ := Option.map_eq_some_iff.mp hmap
  exact ⟨alt, raw, hraw ▸ hmem, hnorm⟩

/-- What the guard takes for a port is the password of a user at another host. -/
theorem not_safe_userinfo : ¬ Safe "https://robertsspaceindustries.com:x@evil.com/" := by
  intro h
  obtain ⟨host, hhost, hname⟩ := h "https://robertsspaceindustries.com:x@evil.com/" (by decide +kernel)
  have heq : browserHost "https://robertsspaceindustries.com:x@evil.com/" = some "evil.com".toList := by
    decide +kernel
  obtain rfl := Option.some.inj (heq.symm.trans hhost)
  revert hname
  decide +kernel

end StarStats.Server.RsiBadges

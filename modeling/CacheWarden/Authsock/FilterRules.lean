import CacheWarden.Authsock.Filter
import CacheWarden.Daemon.PersistedFile

/-!
# Filter rules and the keys they name

A rule is a token with an optional negation. All forms but two are about the key
alone, and each reads the keys it names from text in its own way.
-/

set_option autoImplicit false

namespace CacheWarden

open Daemon

/-- The key library: keys as blobs and as lines of text. -/
structure SshKeyCrate (Key : Type) where
  fromBytes : Blob → Option Key
  fromOpenssh : String → Except String Key
  encode : Key → Blob
  sha256 : Key → String
  algorithm : Key → String

/-- A blob that is read as a key is the blob of that key, and a fingerprint names
its hash. -/
structure SshKeyCrate.Correct {Key : Type} (crate : SshKeyCrate Key) : Prop where
  fromBytes_encode : ∀ key, crate.fromBytes (crate.encode key) = some key
  encode_fromBytes : ∀ blob key, crate.fromBytes blob = some key → crate.encode key = blob
  sha256_begins : ∀ key, "SHA256:".toList <+: (crate.sha256 key).toList

/-- What the parser of rules reads besides the token. -/
structure RuleEnv (Key : Type) where
  ssh : SshKeyCrate Key
  home : Option String
  readFile : String → Except String String
  regexNew : String → Except String Unit
  globNew : String → Except String Unit
  regexMatch : String → String → Bool
  globMatch : String → String → Bool
  toLowercase : String → String

/-- The same, once the files have changed. -/
def RuleEnv.withFiles {Key : Type} (env : RuleEnv Key)
    (files : String → Except String String) : RuleEnv Key :=
  { env with readFile := files }

def RuleEnv.libs {Key : Type} (env : RuleEnv Key) : MatchLibs where
  fingerprint blob := (env.ssh.fromBytes blob).map env.ssh.sha256
  keyType blob := (env.ssh.fromBytes blob).map env.ssh.algorithm
  globMatch := env.globMatch
  regexMatch := env.regexMatch
  toLowercase := env.toLowercase

def startsWith (s p : String) : Bool := p.toList.isPrefixOf s.toList

def stripPrefix (s p : String) : Option String :=
  if startsWith s p then some (String.ofList (s.toList.drop p.length)) else none

/-- `str::find`, with the text from there on. -/
def findFrom (p : List Char) : List Char → Option (List Char)
  | [] => if p.isPrefixOf [] then some [] else none
  | c :: rest => if p.isPrefixOf (c :: rest) then some (c :: rest) else findFrom p rest

def keyPrefixes : List String :=
  ["ssh-ed25519", "ssh-rsa", "ssh-dss", "ecdsa-sha2-", "sk-ssh-ed25519", "sk-ecdsa-sha2-"]

/-- The line from the first type token on. The tokens are tried in their order. -/
def extractKeyPart (line : List Char) : List Char :=
  (keyPrefixes.findSome? fun p => findFrom p.toList line).getD line

/-- The ends of the lines go with the white space around them. -/
def keyLines (content : String) : List (List Char) :=
  ((content.toList.splitOn '\n').map trim).filter fun line => line ≠ [] && line.head? ≠ some '#'

def joinPath (home rest : String) : String :=
  if startsWith rest "/" then rest
  else if home.toList.getLast? = some '/' then home ++ rest
  else home ++ "/" ++ rest

section Construction

variable {Key : Type} (env : RuleEnv Key)

def expandTilde (s : String) : String :=
  match stripPrefix s "~/", env.home with
  | some rest, some home => joinPath home rest
  | _, _ => s

def FingerprintMatcher.new (pattern : String) : Except String FingerprintMatcher :=
  if !startsWith pattern "SHA256:" && !startsWith pattern "MD5:" then
    .error ("invalid fingerprint format: " ++ pattern ++ ". Expected SHA256:... or MD5:...")
  else .ok ⟨pattern⟩

def PubkeyMatcher.new (keyStr : String) : Except String PubkeyMatcher :=
  match env.ssh.fromOpenssh keyStr with
  | .error e => .error ("invalid public key: " ++ e)
  | .ok key => .ok ⟨env.ssh.encode key⟩

/-- A line that cannot be read is left out. -/
def KeyfileMatcher.loadKeys (content : String) : List PubkeyMatcher :=
  (keyLines content).filterMap fun line =>
    (PubkeyMatcher.new env (String.ofList (extractKeyPart line))).toOption

def KeyfileMatcher.new (path : String) : Except String KeyfileMatcher :=
  let path := expandTilde env path
  match env.readFile path with
  | .error e => .error ("failed to read keyfile '" ++ path ++ "': " ++ e)
  | .ok content => .ok ⟨path, KeyfileMatcher.loadKeys env content⟩

def CommentMatcher.new (pattern : String) : Except String CommentMatcher :=
  match stripPrefix pattern "~" with
  | some regexPattern =>
    match env.regexNew regexPattern with
    | .error e => .error ("invalid regex pattern '" ++ regexPattern ++ "': " ++ e)
    | .ok () => .ok (.regex regexPattern)
  | none =>
    if pattern.toList.contains '*' || pattern.toList.contains '?' then
      match env.globNew pattern with
      | .error e => .error ("invalid glob pattern '" ++ pattern ++ "': " ++ e)
      | .ok () => .ok (.glob pattern)
    else .ok (.exact pattern)

def containsDoubleDash : List Char → Bool
  | '-' :: '-' :: _ => true
  | _ :: rest => containsDoubleDash rest
  | [] => false

def validateGithubUser (user : String) : Except String Unit :=
  let chars := user.toList
  if chars ≠ [] && chars.length ≤ 39 && chars.head? ≠ some '-' && chars.getLast? ≠ some '-' &&
      !containsDoubleDash chars && chars.all fun c => isAsciiAlphanumeric c || c = '-' then
    .ok ()
  else .error ("invalid github username: " ++ user.quote)

def isKeyLine (s : String) : Bool :=
  startsWith s "ssh-" || startsWith s "ecdsa-sha2-" || startsWith s "sk-ssh-" ||
    startsWith s "sk-ecdsa-"

def tryAutoDetect (s : String) : Option Filter :=
  if startsWith s "SHA256:" then (FingerprintMatcher.new s).toOption.map .fingerprint
  else if startsWith s "MD5:" then (FingerprintMatcher.new s).toOption.map .fingerprint
  else if isKeyLine s then (PubkeyMatcher.new env s).toOption.map .pubkey
  else none

def parseFilter (s : String) : Except String Filter :=
  match tryAutoDetect env s with
  | some filter => .ok filter
  | none =>
    match stripPrefix s "fingerprint=" with
    | some rest => (FingerprintMatcher.new rest).map .fingerprint
    | none =>
      match stripPrefix s "pubkey=" with
      | some rest => (PubkeyMatcher.new env rest).map .pubkey
      | none =>
        match stripPrefix s "keyfile=" with
        | some rest => (KeyfileMatcher.new env rest).map .keyfile
        | none =>
          match stripPrefix s "comment=" with
          | some rest => (CommentMatcher.new env rest).map .comment
          | none =>
            match stripPrefix s "type=" with
            | some rest => .ok (.keyType (KeyTypeMatcher.new env.libs rest))
            | none =>
              match stripPrefix s "github=" with
              | some rest => (validateGithubUser rest).map fun _ => .github (GithubMatcher.new rest)
              | none => .error ("unknown filter format: " ++ s)

def FilterRule.parse (s : String) : Except String FilterRule :=
  match stripPrefix s "not-" with
  | some rest => (parseFilter env rest).map fun filter => ⟨filter, true⟩
  | none => (parseFilter env s).map fun filter => ⟨filter, false⟩

end Construction

/-- What a token is about, without its negation. -/
inductive RuleForm where
  | fingerprint (pattern : String)
  | pubkey (line : String)
  | keyfile (path : String)
  | keyType (keyType : String)
  | other
  deriving DecidableEq

def ruleForm (body : String) : RuleForm :=
  if startsWith body "SHA256:" || startsWith body "MD5:" then .fingerprint body
  else if isKeyLine body then .pubkey body
  else
    match stripPrefix body "fingerprint=" with
    | some pattern => .fingerprint pattern
    | none =>
      match stripPrefix body "pubkey=" with
      | some line => .pubkey line
      | none =>
        match stripPrefix body "keyfile=" with
        | some path => .keyfile path
        | none =>
          match stripPrefix body "type=" with
          | some keyType => .keyType keyType
          | none => .other

def ruleBody (token : String) : String := (stripPrefix token "not-").getD token

/-- The text after the options of a line: up to the first blank outside quotes. -/
def skipOptions : Bool → List Char → List Char
  | _, [] => []
  | quoted, '\\' :: '"' :: rest => skipOptions quoted rest
  | quoted, c :: rest =>
    if c = '"' then skipOptions (!quoted) rest
    else if !quoted && (c = ' ' || c = '\t') then c :: rest
    else skipOptions quoted rest

section Meaning

variable {Key : Type} (env : RuleEnv Key)

/-- The part of a line that is its key: the line itself, or what follows the
options. -/
def listedPart (line : List Char) : List Char :=
  if (env.ssh.fromOpenssh (String.ofList line)).isOk then line
  else (skipOptions false line).dropWhile fun c => c = ' ' || c = '\t'

def keyOf (part : List Char) : Option Key := (env.ssh.fromOpenssh (String.ofList part)).toOption

/-- The key that a line lists. -/
def Lists (line : List Char) (key : Key) : Prop := keyOf env (listedPart env line) = some key

/-- The search for a type token stops where the key of the line begins. -/
def Straight (line : List Char) : Prop := extractKeyPart line = listedPart env line

/-- Either a line lists the key where the search stops, or the other lines list it
if and only if they name it from where the search stops. -/
def ReadsKeyfile (content : String) (key : Key) : Prop :=
  (∃ line ∈ keyLines content, Straight env line ∧ Lists env line key) ∨
    ((∃ line ∈ keyLines content, ¬ Straight env line ∧
        keyOf env (extractKeyPart line) = some key) ↔
      ∃ line ∈ keyLines content, ¬ Straight env line ∧ Lists env line key)

/-- The keys a token names. -/
def Names (md5 : Key → String) (body : String) (key : Key) : Prop :=
  match ruleForm body with
  | .fingerprint pattern =>
    if startsWith pattern "MD5:" then pattern.toList <+: (md5 key).toList
    else pattern.toList <+: (env.ssh.sha256 key).toList
  | .pubkey line => env.ssh.fromOpenssh line = .ok key
  | .keyfile path => ∃ content, env.readFile (expandTilde env path) = .ok content ∧
      ∃ line ∈ keyLines content, Lists env line key
  | .keyType keyType => KeyTypeMatcher.normalize env.libs (env.ssh.algorithm key) =
      KeyTypeMatcher.normalize env.libs keyType
  | .other => False

/-- The keys for which the code reads a token as it is meant. -/
def ReadAsMeant (md5 : Key → String) (body : String) (key : Key) : Prop :=
  match ruleForm body with
  | .fingerprint pattern =>
    startsWith pattern "MD5:" = true → ¬ pattern.toList <+: (md5 key).toList
  | .keyfile path => ∀ content, env.readFile (expandTilde env path) = .ok content →
      ReadsKeyfile env content key
  | _ => True

end Meaning

section Parse

variable {Key : Type} {env : RuleEnv Key} {body : String} {filter : Filter}

theorem startsWith_head {s p : String} {c : Char} (hp : p.toList.head? = some c)
    (h : startsWith s p = true) : s.toList.head? = some c := by
  obtain ⟨rest, hrest⟩ := List.isPrefixOf_iff_prefix.mp h
  rw [← hrest]
  cases hlist : p.toList with
  | nil =>
    rw [hlist] at hp
    cases hp
  | cons a more =>
    rw [hlist] at hp
    exact hp

theorem isKeyLine_head {s : String} (h : isKeyLine s = true) :
    s.toList.head? = some 's' ∨ s.toList.head? = some 'e' := by
  unfold isKeyLine at h
  simp only [Bool.or_eq_true] at h
  rcases h with ((h | h) | h) | h
  · exact Or.inl (startsWith_head rfl h)
  · exact Or.inr (startsWith_head rfl h)
  · exact Or.inl (startsWith_head rfl h)
  · exact Or.inl (startsWith_head rfl h)

theorem stripPrefix_head_ne {s p : String} {c : Char} (hp : p.toList.head? = some c)
    (hne : s.toList.head? ≠ some c) : stripPrefix s p = none := by
  unfold stripPrefix
  rw [if_neg]
  exact fun hstart => hne (startsWith_head hp hstart)

/-- A key line has none of the forms with an equals sign. -/
theorem stripPrefix_keyLine {s p : String} {c : Char} (h : isKeyLine s = true)
    (hp : p.toList.head? = some c) (hs : c ≠ 's') (he : c ≠ 'e') : stripPrefix s p = none := by
  apply stripPrefix_head_ne hp
  intro hhead
  rcases isKeyLine_head h with h | h
  · rw [hhead] at h
    exact hs (Option.some.inj h)
  · rw [hhead] at h
    exact he (Option.some.inj h)

theorem fingerprintMatcher_new {pattern : String} {m : FingerprintMatcher}
    (h : FingerprintMatcher.new pattern = .ok m) :
    m = ⟨pattern⟩ ∧ (startsWith pattern "SHA256:" = true ∨ startsWith pattern "MD5:" = true) := by
  unfold FingerprintMatcher.new at h
  split at h
  · cases h
  · rename_i hstarts
    cases h
    refine ⟨rfl, ?_⟩
    by_cases hsha : startsWith pattern "SHA256:" = true
    · exact Or.inl hsha
    · by_cases hmd5 : startsWith pattern "MD5:" = true
      · exact Or.inr hmd5
      · simp [hsha, hmd5] at hstarts

theorem pubkeyMatcher_new {line : String} {m : PubkeyMatcher}
    (h : PubkeyMatcher.new env line = .ok m) :
    ∃ key, env.ssh.fromOpenssh line = .ok key ∧ m = ⟨env.ssh.encode key⟩ := by
  unfold PubkeyMatcher.new at h
  split at h
  · cases h
  · rename_i key hkey
    cases h
    exact ⟨key, hkey, rfl⟩

theorem keyfileMatcher_new {path : String} {m : KeyfileMatcher}
    (h : KeyfileMatcher.new env path = .ok m) :
    ∃ content, env.readFile (expandTilde env path) = .ok content ∧
      m.matchers = KeyfileMatcher.loadKeys env content := by
  unfold KeyfileMatcher.new at h
  simp only at h
  split at h
  · cases h
  · rename_i content hcontent
    cases h
    exact ⟨content, hcontent, rfl⟩

/-- The matcher that a token is parsed to. -/
inductive Parsed (env : RuleEnv Key) : RuleForm → Filter → Prop where
  | fingerprint (pattern : String)
      (hstarts : startsWith pattern "SHA256:" = true ∨ startsWith pattern "MD5:" = true) :
      Parsed env (.fingerprint pattern) (.fingerprint ⟨pattern⟩)
  | pubkey (line : String) (key : Key) (hkey : env.ssh.fromOpenssh line = .ok key) :
      Parsed env (.pubkey line) (.pubkey ⟨env.ssh.encode key⟩)
  | keyfile (path content : String) (m : KeyfileMatcher)
      (hcontent : env.readFile (expandTilde env path) = .ok content)
      (hload : m.matchers = KeyfileMatcher.loadKeys env content) :
      Parsed env (.keyfile path) (.keyfile m)
  | keyType (keyType : String) :
      Parsed env (.keyType keyType) (.keyType (KeyTypeMatcher.new env.libs keyType))
  | other (filter : Filter) : Parsed env .other filter

theorem ok_of_map {ε α β : Type} {x : Except ε α} {f : α → β} {b : β}
    (h : x.map f = .ok b) : ∃ a, x = .ok a ∧ f a = b := by
  cases x with
  | error e => cases h
  | ok a =>
    cases h
    exact ⟨a, rfl, rfl⟩

theorem parseFilter_parsed (h : parseFilter env body = .ok filter) :
    Parsed env (ruleForm body) filter := by
  revert h
  unfold parseFilter ruleForm tryAutoDetect
  by_cases hsha : startsWith body "SHA256:" = true
  · have hnew : FingerprintMatcher.new body = .ok ⟨body⟩ := by
      unfold FingerprintMatcher.new
      rw [hsha]
      rfl
    rw [if_pos hsha, hnew, hsha, Bool.true_or, if_pos rfl]
    intro h
    cases h
    exact .fingerprint body (Or.inl hsha)
  by_cases hmd5 : startsWith body "MD5:" = true
  · have hnew : FingerprintMatcher.new body = .ok ⟨body⟩ := by
      unfold FingerprintMatcher.new
      rw [hmd5, Bool.eq_false_iff.mpr hsha]
      rfl
    rw [if_neg hsha, if_pos hmd5, hnew, hmd5, Bool.or_true, if_pos rfl]
    intro h
    cases h
    exact .fingerprint body (Or.inr hmd5)
  rw [if_neg hsha, if_neg hmd5, Bool.eq_false_iff.mpr hsha, Bool.eq_false_iff.mpr hmd5]
  by_cases hline : isKeyLine body = true
  · rw [if_pos hline, if_pos hline]
    cases hnew : PubkeyMatcher.new env body with
    | ok m =>
      intro h
      cases h
      obtain ⟨key, hkey, hm⟩ := pubkeyMatcher_new hnew
      rw [hm]
      exact .pubkey body key hkey
    | error e =>
      intro h
      simp only [Except.toOption, Option.map_none] at h
      rw [stripPrefix_keyLine hline (c := 'f') rfl (by decide) (by decide),
        stripPrefix_keyLine hline (c := 'p') rfl (by decide) (by decide),
        stripPrefix_keyLine hline (c := 'k') rfl (by decide) (by decide),
        stripPrefix_keyLine hline (c := 'c') rfl (by decide) (by decide),
        stripPrefix_keyLine hline (c := 't') rfl (by decide) (by decide),
        stripPrefix_keyLine hline (c := 'g') rfl (by decide) (by decide)] at h
      cases h
  rw [if_neg hline, if_neg hline]
  simp only [Bool.or_self, Bool.false_eq_true, if_false]
  cases stripPrefix body "fingerprint=" with
  | some pattern =>
    intro h
    obtain ⟨m, hm, heq⟩ := ok_of_map h
    obtain ⟨hpattern, hstarts⟩ := fingerprintMatcher_new hm
    rw [← heq, hpattern]
    exact .fingerprint pattern hstarts
  | none =>
  cases stripPrefix body "pubkey=" with
  | some line =>
    intro h
    obtain ⟨m, hm, heq⟩ := ok_of_map h
    obtain ⟨key, hkey, hblob⟩ := pubkeyMatcher_new hm
    rw [← heq, hblob]
    exact .pubkey line key hkey
  | none =>
  cases stripPrefix body "keyfile=" with
  | some path =>
    intro h
    obtain ⟨m, hm, heq⟩ := ok_of_map h
    obtain ⟨content, hcontent, hload⟩ := keyfileMatcher_new hm
    rw [← heq]
    exact .keyfile path content m hcontent hload
  | none =>
  cases hcomment : stripPrefix body "comment=" with
  | some pattern =>
    have hhead : body.toList.head? = some 'c' := by
      unfold stripPrefix at hcomment
      split at hcomment
      · rename_i hstart
        exact startsWith_head rfl hstart
      · cases hcomment
    rw [stripPrefix_head_ne (c := 't') rfl (by rw [hhead]; decide)]
    exact fun _ => .other filter
  | none =>
  cases stripPrefix body "type=" with
  | some keyType =>
    intro h
    cases h
    exact .keyType keyType
  | none => exact fun _ => .other filter

/-- The file that a token names can be read. -/
def FilterRule.readable (env : RuleEnv Key) (token : String) : Bool :=
  match stripPrefix (ruleBody token) "keyfile=" with
  | some path => (env.readFile (expandTilde env path)).isOk
  | none => true

theorem isOk_map {ε α β : Type} (x : Except ε α) (f : α → β) : (x.map f).isOk = x.isOk := by
  cases x <;> rfl

theorem parse_isOk {token : String} :
    (FilterRule.parse env token).isOk = (parseFilter env (ruleBody token)).isOk := by
  unfold FilterRule.parse ruleBody
  cases stripPrefix token "not-" with
  | some rest => exact isOk_map _ _
  | none => exact isOk_map _ _

/-- No key is taken for the name of a file. -/
theorem parseFilter_keyfile {path : String} (h : stripPrefix body "keyfile=" = some path) :
    parseFilter env body = (KeyfileMatcher.new env path).map .keyfile := by
  have hhead : body.toList.head? = some 'k' := by
    unfold stripPrefix at h
    split at h
    · rename_i hstart
      exact startsWith_head rfl hstart
    · cases h
  have hother : ∀ {p : String} {c : Char}, p.toList.head? = some c → c ≠ 'k' →
      startsWith body p = false := by
    intro p c hp hc
    by_contra hstart
    rw [Bool.not_eq_false] at hstart
    have hsame := startsWith_head hp hstart
    rw [hhead, Option.some_inj] at hsame
    exact hc hsame.symm
  have hnone : ∀ {p : String} {c : Char}, p.toList.head? = some c → c ≠ 'k' →
      stripPrefix body p = none := by
    intro p c hp hc
    unfold stripPrefix
    rw [hother hp hc]
    rfl
  have hline : isKeyLine body = false := by
    unfold isKeyLine
    rw [hother (c := 's') rfl (by decide), hother (c := 'e') rfl (by decide),
      hother (c := 's') rfl (by decide), hother (c := 's') rfl (by decide)]
    rfl
  have hauto : tryAutoDetect env body = none := by
    unfold tryAutoDetect
    rw [hother (c := 'S') rfl (by decide), hother (c := 'M') rfl (by decide), hline]
    rfl
  unfold parseFilter
  rw [hauto, hnone (c := 'f') rfl (by decide), hnone (c := 'p') rfl (by decide), h]

theorem parseFilter_withFiles (files : String → Except String String)
    (h : stripPrefix body "keyfile=" = none) :
    parseFilter (env.withFiles files) body = parseFilter env body := by
  unfold parseFilter
  rw [h]
  rfl

/-- A token that was read once is read again as long as its file is there. -/
theorem parse_withFiles {token : String} (files : String → Except String String)
    (h : (FilterRule.parse env token).isOk = true) :
    (FilterRule.parse (env.withFiles files) token).isOk =
      FilterRule.readable (env.withFiles files) token := by
  rw [parse_isOk] at h ⊢
  unfold FilterRule.readable
  cases hfile : stripPrefix (ruleBody token) "keyfile=" with
  | none =>
    rw [parseFilter_withFiles files hfile]
    exact h
  | some path =>
    rw [parseFilter_keyfile hfile, isOk_map]
    unfold KeyfileMatcher.new
    simp only
    cases (env.withFiles files).readFile (expandTilde (env.withFiles files) path) with
    | error e => rfl
    | ok content => rfl

end Parse

section Verdicts

variable {Key : Type} {env : RuleEnv Key} {md5 : Key → String} {identity : Identity} {key : Key}

theorem fingerprint_matches {pattern : String}
    (hkey : env.ssh.fromBytes identity.keyBlob = some key) :
    (FingerprintMatcher.mk pattern).matches env.libs identity = true ↔
      pattern.toList <+: (env.ssh.sha256 key).toList := by
  unfold FingerprintMatcher.matches
  show (match (env.ssh.fromBytes identity.keyBlob).map env.ssh.sha256 with
    | some fp => _
    | none => _) = true ↔ _
  rw [hkey]
  simp only [Option.map_some, Bool.or_eq_true, beq_iff_eq]
  rw [List.isPrefixOf_iff_prefix]
  constructor
  · rintro (h | h)
    · exact h
    · rw [h]
  · exact Or.inl

/-- No pattern is of both hashes. -/
theorem not_md5_of_sha256 {pattern text : String} (hmd5 : startsWith pattern "MD5:" = true)
    (htext : "SHA256:".toList <+: text.toList) : ¬ pattern.toList <+: text.toList := by
  intro hpre
  have hpattern := startsWith_head (c := 'M') rfl hmd5
  have htextHead : text.toList.head? = some 'S' :=
    startsWith_head (p := "SHA256:") rfl (List.isPrefixOf_iff_prefix.mpr htext)
  have hboth := startsWith_head hpattern (List.isPrefixOf_iff_prefix.mpr hpre)
  rw [htextHead] at hboth
  cases hboth

theorem pubkey_matches (hcrate : env.ssh.Correct) {named : Key}
    (hkey : env.ssh.fromBytes identity.keyBlob = some key) :
    (PubkeyMatcher.mk (env.ssh.encode named)).matches identity = true ↔ named = key := by
  unfold PubkeyMatcher.matches
  rw [beq_iff_eq]
  constructor
  · intro heq
    rw [heq, hcrate.fromBytes_encode] at hkey
    exact Option.some.inj hkey
  · intro heq
    rw [heq]
    exact (hcrate.encode_fromBytes _ _ hkey).symm

theorem new_of_keyOf {part : List Char} (h : keyOf env part = some key) :
    PubkeyMatcher.new env (String.ofList part) = .ok ⟨env.ssh.encode key⟩ := by
  unfold keyOf at h
  unfold PubkeyMatcher.new
  cases hopen : env.ssh.fromOpenssh (String.ofList part) with
  | error e =>
    rw [hopen] at h
    cases h
  | ok named =>
    rw [hopen] at h
    cases h
    rfl

/-- A file matches the keys that its lines name from where the search stops. -/
theorem keyfile_matches (hcrate : env.ssh.Correct) {m : KeyfileMatcher} {content : String}
    (hkey : env.ssh.fromBytes identity.keyBlob = some key)
    (hload : m.matchers = KeyfileMatcher.loadKeys env content) :
    m.matches identity = true ↔
      ∃ line ∈ keyLines content, keyOf env (extractKeyPart line) = some key := by
  unfold KeyfileMatcher.matches
  rw [hload, List.any_eq_true]
  unfold KeyfileMatcher.loadKeys
  constructor
  · rintro ⟨matcher, hmem, hmatches⟩
    obtain ⟨line, hline, hnew⟩ := List.mem_filterMap.mp hmem
    refine ⟨line, hline, ?_⟩
    cases hpart : PubkeyMatcher.new env (String.ofList (extractKeyPart line)) with
    | error e =>
      rw [hpart] at hnew
      cases hnew
    | ok found =>
      rw [hpart] at hnew
      cases hnew
      obtain ⟨named, hnamed, heq⟩ := pubkeyMatcher_new hpart
      rw [heq, pubkey_matches hcrate hkey] at hmatches
      unfold keyOf
      rw [hnamed, hmatches]
      rfl
  · rintro ⟨line, hline, hnamed⟩
    refine ⟨⟨env.ssh.encode key⟩, List.mem_filterMap.mpr ⟨line, hline, ?_⟩,
      (pubkey_matches hcrate hkey).mpr rfl⟩
    rw [new_of_keyOf hnamed]
    rfl

/-- What the lines name is what they list exactly where the file is read as meant. -/
theorem readsKeyfile_iff (content : String) :
    ((∃ line ∈ keyLines content, keyOf env (extractKeyPart line) = some key) ↔
      ∃ line ∈ keyLines content, Lists env line key) ↔ ReadsKeyfile env content key := by
  have hsame : ∀ line, Straight env line →
      (keyOf env (extractKeyPart line) = some key ↔ Lists env line key) := by
    intro line hstraight
    unfold Lists
    rw [show extractKeyPart line = listedPart env line from hstraight]
  unfold ReadsKeyfile
  constructor
  · intro h
    by_cases hstraight : ∃ line ∈ keyLines content, Straight env line ∧ Lists env line key
    · exact Or.inl hstraight
    refine Or.inr ⟨?_, ?_⟩
    · rintro ⟨line, hline, hcrooked, hfound⟩
      obtain ⟨other, hother, hlists⟩ := h.mp ⟨line, hline, hfound⟩
      exact ⟨other, hother, fun hs => hstraight ⟨other, hother, hs, hlists⟩, hlists⟩
    · rintro ⟨line, hline, hcrooked, hlists⟩
      obtain ⟨other, hother, hfound⟩ := h.mpr ⟨line, hline, hlists⟩
      exact ⟨other, hother,
        fun hs => hstraight ⟨other, hother, hs, (hsame other hs).mp hfound⟩, hfound⟩
  · rintro (⟨line, hline, hs, hlists⟩ | hcrooked)
    · exact ⟨fun _ => ⟨line, hline, hlists⟩, fun _ => ⟨line, hline, (hsame line hs).mpr hlists⟩⟩
    · constructor
      · rintro ⟨line, hline, hfound⟩
        by_cases hs : Straight env line
        · exact ⟨line, hline, (hsame line hs).mp hfound⟩
        · obtain ⟨other, hother, -, hlists⟩ := hcrooked.mp ⟨line, hline, hs, hfound⟩
          exact ⟨other, hother, hlists⟩
      · rintro ⟨line, hline, hlists⟩
        by_cases hs : Straight env line
        · exact ⟨line, hline, (hsame line hs).mpr hlists⟩
        · obtain ⟨other, hother, -, hfound⟩ := hcrooked.mpr ⟨line, hline, hs, hlists⟩
          exact ⟨other, hother, hfound⟩

/-- The verdict of a matcher is what its token means exactly where the token is
read as meant. -/
theorem parsed_reads (hcrate : env.ssh.Correct) {body : String} {filter : Filter}
    (hparsed : Parsed env (ruleForm body) filter) (hform : ruleForm body ≠ .other)
    (hkey : env.ssh.fromBytes identity.keyBlob = some key) :
    (filter.matches env.libs identity = true ↔ Names env md5 body key) ↔
      ReadAsMeant env md5 body key := by
  unfold Names ReadAsMeant
  generalize ruleForm body = form at hparsed hform
  cases hparsed with
  | fingerprint pattern hstarts =>
    show ((FingerprintMatcher.mk pattern).matches env.libs identity = true ↔ _) ↔ _
    rw [fingerprint_matches hkey]
    simp only
    by_cases hmd5 : startsWith pattern "MD5:" = true
    · have hsha := not_md5_of_sha256 hmd5 (hcrate.sha256_begins key)
      rw [if_pos hmd5]
      exact ⟨fun h _ hnamed => hsha (h.mpr hnamed),
        fun h => ⟨fun hpre => absurd hpre hsha, fun hnamed => absurd hnamed (h hmd5)⟩⟩
    · rw [if_neg hmd5]
      exact ⟨fun _ htrue => absurd htrue hmd5, fun _ => Iff.rfl⟩
  | pubkey line named hnamed =>
    show ((PubkeyMatcher.mk _).matches identity = true ↔ env.ssh.fromOpenssh line = _) ↔ True
    rw [pubkey_matches hcrate hkey, hnamed, Except.ok.injEq]
    exact ⟨fun _ => trivial, fun _ => Iff.rfl⟩
  | keyfile path content m hcontent hload =>
    show (m.matches identity = true ↔ _) ↔ _
    rw [keyfile_matches hcrate hkey hload]
    constructor
    · intro h content' hcontent'
      rw [hcontent] at hcontent'
      cases hcontent'
      apply (readsKeyfile_iff content).mp
      rw [h]
      constructor
      · rintro ⟨other, hother, hlists⟩
        rw [hcontent] at hother
        cases hother
        exact hlists
      · exact fun hlists => ⟨content, hcontent, hlists⟩
    · intro h
      rw [(readsKeyfile_iff content).mpr (h content hcontent)]
      constructor
      · exact fun hlists => ⟨content, hcontent, hlists⟩
      · rintro ⟨other, hother, hlists⟩
        rw [hcontent] at hother
        cases hother
        exact hlists
  | keyType keyType =>
    show ((KeyTypeMatcher.new env.libs keyType).matches env.libs identity = true ↔ _) ↔ True
    unfold KeyTypeMatcher.matches
    show ((match (env.ssh.fromBytes identity.keyBlob).map env.ssh.algorithm with
      | some algo => _
      | none => _) = true ↔ _) ↔ True
    rw [hkey]
    simp only [Option.map_some, beq_iff_eq, KeyTypeMatcher.new]
  | other filter => exact absurd rfl hform

/-- A token names keys as it is meant to exactly where it is read as meant, and
its negation then hides every one of them. -/
theorem rules_name {Key : Type} (env : RuleEnv Key) (md5 : Key → String) (token : String)
    (rule : FilterRule) (identity : Identity) (key : Key) (hcrate : env.ssh.Correct)
    (hparse : FilterRule.parse env token = .ok rule)
    (hform : ruleForm (ruleBody token) ≠ .other)
    (hkey : env.ssh.fromBytes identity.keyBlob = some key) :
    ((rule.filter.matches env.libs identity = true ↔ Names env md5 (ruleBody token) key) ↔
      ReadAsMeant env md5 (ruleBody token) key) ∧
    (rule.negated = true → Names env md5 (ruleBody token) key →
      (rule.matches env.libs identity = false ↔ ReadAsMeant env md5 (ruleBody token) key)) := by
  have hparsed : parseFilter env (ruleBody token) = .ok rule.filter := by
    unfold FilterRule.parse at hparse
    unfold ruleBody
    cases hnot : stripPrefix token "not-" with
    | some rest =>
      rw [hnot] at hparse
      obtain ⟨filter, hfilter, heq⟩ := ok_of_map hparse
      rw [← heq]
      exact hfilter
    | none =>
      rw [hnot] at hparse
      obtain ⟨filter, hfilter, heq⟩ := ok_of_map hparse
      rw [← heq]
      exact hfilter
  have hreads : (rule.filter.matches env.libs identity = true ↔
      Names env md5 (ruleBody token) key) ↔ ReadAsMeant env md5 (ruleBody token) key :=
    parsed_reads hcrate (parseFilter_parsed hparsed) hform hkey
  refine ⟨hreads, ?_⟩
  intro hnegated hnames
  unfold FilterRule.matches
  rw [if_pos hnegated, Bool.not_eq_false']
  rw [← hreads]
  exact ⟨fun h => ⟨fun _ => hnames, fun _ => h⟩, fun h => h.mpr hnames⟩

end Verdicts

section Straightness

/-- The line of a security key is read from inside its type. -/
theorem extractKeyPart_sk (rest : List Char) :
    extractKeyPart ("sk-ssh-ed25519@openssh.com".toList ++ rest) =
      "ssh-ed25519@openssh.com".toList ++ rest := rfl

end Straightness

inductive SampleKey where
  | plain
  | security
  deriving DecidableEq

def SampleKey.line : SampleKey → String
  | .plain => "ssh-ed25519 AAAAC3NzaC1lZDI1NTE5AAAAIOMqqnkVzrm0SdG6UOoqKLsabgH5C9okWi0dh2l9GKJl"
  | .security =>
    "sk-ssh-ed25519@openssh.com AAAAGnNrLXNzaC1lZDI1NTE5QG9wZW5zc2guY29tAAAAIAECAwQFBgcICQoLDA0ODxAREhMUFRYXGBkaGxwdHh8gAAAABHNzaDo="

def SampleKey.blob : SampleKey → Blob
  | .plain =>
    [0, 0, 0, 11, 115, 115, 104, 45, 101, 100, 50, 53, 53, 49, 57, 0, 0, 0, 32, 227, 42, 170, 121,
      21, 206, 185, 180, 73, 209, 186, 80, 234, 42, 40, 187, 26, 110, 1, 249, 11, 218, 36, 90, 45,
      29, 135, 105, 125, 24, 162, 101]
  | .security =>
    [0, 0, 0, 26, 115, 107, 45, 115, 115, 104, 45, 101, 100, 50, 53, 53, 49, 57, 64, 111, 112,
      101, 110, 115, 115, 104, 46, 99, 111, 109, 0, 0, 0, 32, 1, 2, 3, 4, 5, 6, 7, 8, 9, 10, 11,
      12, 13, 14, 15, 16, 17, 18, 19, 20, 21, 22, 23, 24, 25, 26, 27, 28, 29, 30, 31, 32, 0, 0, 0,
      4, 115, 115, 104, 58]

def SampleKey.md5 : SampleKey → String
  | .plain => "MD5:65:96:2d:fc:e8:d5:a9:11:64:0c:0f:ea:00:6e:5b:bd"
  | .security => "MD5:04:dc:9b:b0:a6:43:8e:07:e2:b4:5c:dc:ff:08:95:c5"

def sampleCrate : SshKeyCrate SampleKey where
  fromBytes blob :=
    if blob = SampleKey.blob .plain then some .plain
    else if blob = SampleKey.blob .security then some .security
    else none
  fromOpenssh line :=
    if line = SampleKey.line .plain then .ok .plain
    else if line = SampleKey.line .security then .ok .security
    else .error "unknown algorithm"
  encode := SampleKey.blob
  sha256
    | .plain => "SHA256:+DiY3wvvV6TuJJhbpZisF/zLDA0zPMSvHdkr4UvCOqU"
    | .security => "SHA256:nX0hpi5mKbTIJ10yBq5/sLQhiI1Y0RBAqN0drDdgJWs"
  algorithm
    | .plain => "ssh-ed25519"
    | .security => "sk-ssh-ed25519@openssh.com"

theorem sampleCrate_correct : sampleCrate.Correct where
  fromBytes_encode key := by cases key <;> decide
  encode_fromBytes blob key h := by
    revert h
    unfold sampleCrate
    simp only
    split
    · rename_i hblob
      intro h
      cases h
      exact hblob.symm
    split
    · rename_i hblob
      intro h
      cases h
      exact hblob.symm
    · exact fun h => by cases h
  sha256_begins key := by cases key <;> decide

/-- Two files, of a key behind options and of a security key. -/
def sampleEnv : RuleEnv SampleKey where
  ssh := sampleCrate
  home := none
  readFile path :=
    if path = "/plain" then .ok ("from=\"a b\" " ++ SampleKey.line .plain ++ "\n")
    else if path = "/security" then .ok (SampleKey.line .security ++ "\n")
    else .error "No such file or directory"
  regexNew _ := .ok ()
  globNew _ := .ok ()
  regexMatch _ _ := false
  globMatch _ _ := false
  toLowercase s := String.ofList (s.toList.map asciiLower)

def plainLine : List Char := ("from=\"a b\" " ++ SampleKey.line .plain).toList

/-- The library reads the characters of the two lines. -/
theorem fromOpenssh_ofList (part : List Char) :
    sampleCrate.fromOpenssh (String.ofList part) =
      if part = (SampleKey.line .plain).toList then .ok .plain
      else if part = (SampleKey.line .security).toList then .ok .security
      else .error "unknown algorithm" := by
  have hsame : ∀ key : SampleKey,
      String.ofList part = key.line ↔ part = key.line.toList := by
    intro key
    rw [← String.toList_inj, String.toList_ofList]
  simp only [sampleCrate, hsame]

theorem plainLine_eq : plainLine = "from=\"a b\" ".toList ++ (SampleKey.line .plain).toList :=
  String.toList_append

set_option maxRecDepth 8000 in
theorem keyLines_plain :
    keyLines ("from=\"a b\" " ++ SampleKey.line .plain ++ "\n") = [plainLine] := by
  have hplain : (SampleKey.line .plain).toList = _ := String.toList_ofList
  have hcontent : ("from=\"a b\" " ++ SampleKey.line .plain ++ "\n").toList =
      plainLine ++ "\n".toList := String.toList_append
  rw [keyLines, hcontent, plainLine_eq, hplain]
  decide

set_option maxRecDepth 8000 in
theorem keyLines_security :
    keyLines (SampleKey.line .security ++ "\n") = [(SampleKey.line .security).toList] := by
  have hsecurity : (SampleKey.line .security).toList = _ := String.toList_ofList
  rw [keyLines, String.toList_append, hsecurity]
  decide

set_option maxRecDepth 8000 in
theorem plainLine_lists : Lists sampleEnv plainLine .plain := by
  have hplain : (SampleKey.line .plain).toList = _ := String.toList_ofList
  have hsecurity : (SampleKey.line .security).toList = _ := String.toList_ofList
  simp only [Lists, keyOf, listedPart, sampleEnv, fromOpenssh_ofList]
  rw [plainLine_eq, hplain, hsecurity]
  decide

set_option maxRecDepth 8000 in
theorem plainLine_straight : Straight sampleEnv plainLine := by
  have hplain : (SampleKey.line .plain).toList = _ := String.toList_ofList
  have hsecurity : (SampleKey.line .security).toList = _ := String.toList_ofList
  rw [Straight, listedPart, sampleEnv, fromOpenssh_ofList, plainLine_eq, hplain, hsecurity]
  decide

set_option maxRecDepth 8000 in
theorem securityLine_lists : Lists sampleEnv (SampleKey.line .security).toList .security := by
  have hplain : (SampleKey.line .plain).toList = _ := String.toList_ofList
  have hsecurity : (SampleKey.line .security).toList = _ := String.toList_ofList
  simp only [Lists, keyOf, listedPart, sampleEnv, fromOpenssh_ofList]
  rw [hplain, hsecurity]
  decide

set_option maxRecDepth 8000 in
/-- Where the search for a type token stops in the line of the security key there is no key. -/
theorem securityLine_crooked :
    sampleCrate.fromOpenssh (String.ofList (extractKeyPart (SampleKey.line .security).toList)) =
      .error "unknown algorithm" := by
  have hplain : (SampleKey.line .plain).toList = _ := String.toList_ofList
  have hsecurity : (SampleKey.line .security).toList = _ := String.toList_ofList
  rw [fromOpenssh_ofList, hplain, hsecurity]
  decide

theorem loadKeys_of_line {content : String} {line : List Char} (h : keyLines content = [line]) :
    KeyfileMatcher.loadKeys sampleEnv content =
      (PubkeyMatcher.new sampleEnv (String.ofList (extractKeyPart line))).toOption.toList := by
  rw [KeyfileMatcher.loadKeys, h]
  cases hnew : (PubkeyMatcher.new sampleEnv (String.ofList (extractKeyPart line))).toOption with
  | none => simp [hnew]
  | some key => simp [hnew]

theorem loadKeys_plain :
    KeyfileMatcher.loadKeys sampleEnv ("from=\"a b\" " ++ SampleKey.line .plain ++ "\n") =
      [⟨SampleKey.blob .plain⟩] := by
  have hlists : keyOf sampleEnv (listedPart sampleEnv plainLine) = some .plain := plainLine_lists
  rw [← show extractKeyPart plainLine = listedPart sampleEnv plainLine from
    plainLine_straight] at hlists
  have hnew := new_of_keyOf hlists
  rw [loadKeys_of_line keyLines_plain, hnew]
  rfl

theorem loadKeys_security :
    KeyfileMatcher.loadKeys sampleEnv (SampleKey.line .security ++ "\n") = [] := by
  have hnew : PubkeyMatcher.new sampleEnv
      (String.ofList (extractKeyPart (SampleKey.line .security).toList)) =
        .error ("invalid public key: " ++ "unknown algorithm") := by
    rw [PubkeyMatcher.new, show sampleEnv.ssh = sampleCrate from rfl, securityLine_crooked]
  rw [loadKeys_of_line keyLines_security, hnew]
  rfl

/-- A negated rule of a file. -/
theorem parse_not_keyfile (token body path : String) {content : String}
    (hnot : stripPrefix token "not-" = some body)
    (hfile : stripPrefix body "keyfile=" = some path)
    (hread : sampleEnv.readFile (expandTilde sampleEnv path) = .ok content) :
    FilterRule.parse sampleEnv token =
      .ok ⟨.keyfile ⟨expandTilde sampleEnv path, KeyfileMatcher.loadKeys sampleEnv content⟩,
        true⟩ := by
  rw [FilterRule.parse, hnot]
  simp only [parseFilter_keyfile hfile, KeyfileMatcher.new, hread]
  rfl

/-- A negated file rule hides the key that its file lists behind options. -/
theorem plain_hidden :
    ∃ rule, FilterRule.parse sampleEnv "not-keyfile=/plain" = .ok rule ∧
      rule.matches sampleEnv.libs ⟨SampleKey.blob .plain, "me"⟩ = false := by
  have hread : sampleEnv.readFile (expandTilde sampleEnv "/plain") =
      .ok ("from=\"a b\" " ++ SampleKey.line .plain ++ "\n") := rfl
  have hparse := parse_not_keyfile "not-keyfile=/plain" "keyfile=/plain" "/plain"
    (by decide) (by decide) hread
  rw [loadKeys_plain] at hparse
  have hform : ruleForm (ruleBody "not-keyfile=/plain") = .keyfile "/plain" := by decide
  have hrule := rules_name sampleEnv SampleKey.md5 "not-keyfile=/plain" _
    ⟨SampleKey.blob .plain, "me"⟩ .plain sampleCrate_correct hparse (by rw [hform]; decide) rfl
  refine ⟨_, hparse, (hrule.2 rfl ?_).mpr ?_⟩
  · unfold Names
    rw [hform]
    refine ⟨_, hread, plainLine, ?_, plainLine_lists⟩
    rw [keyLines_plain]
    exact List.mem_singleton_self _
  · unfold ReadAsMeant
    rw [hform]
    intro content hcontent
    rw [hread] at hcontent
    cases hcontent
    refine Or.inl ⟨plainLine, ?_, plainLine_straight, plainLine_lists⟩
    rw [keyLines_plain]
    exact List.mem_singleton_self _

/-- A security key that a file lists passes the rule that should hide it, and so
does a key named by its MD5 fingerprint. -/
theorem named_keys_pass :
    (Names sampleEnv SampleKey.md5 "keyfile=/security" .security ∧
      ∃ rule, FilterRule.parse sampleEnv "not-keyfile=/security" = .ok rule ∧
        rule.matches sampleEnv.libs ⟨SampleKey.blob .security, "me"⟩ = true) ∧
    Names sampleEnv SampleKey.md5 "MD5:65:96:2d:fc" .plain ∧
      ∃ rule, FilterRule.parse sampleEnv "not-MD5:65:96:2d:fc" = .ok rule ∧
        rule.matches sampleEnv.libs ⟨SampleKey.blob .plain, "me"⟩ = true := by
  have hread : sampleEnv.readFile (expandTilde sampleEnv "/security") =
      .ok (SampleKey.line .security ++ "\n") := rfl
  have hsecurity := parse_not_keyfile "not-keyfile=/security" "keyfile=/security" "/security"
    (by decide) (by decide) hread
  rw [loadKeys_security] at hsecurity
  have hmd5 : FilterRule.parse sampleEnv "not-MD5:65:96:2d:fc" =
      .ok ⟨.fingerprint ⟨"MD5:65:96:2d:fc"⟩, true⟩ := by decide
  refine ⟨⟨?_, _, hsecurity, rfl⟩, ?_, _, hmd5, ?_⟩
  · have hform : ruleForm "keyfile=/security" = .keyfile "/security" := by decide
    unfold Names
    rw [hform]
    refine ⟨_, hread, (SampleKey.line .security).toList, ?_, securityLine_lists⟩
    rw [keyLines_security]
    exact List.mem_singleton_self _
  · have hform : ruleForm "MD5:65:96:2d:fc" = .fingerprint "MD5:65:96:2d:fc" := by decide
    unfold Names
    rw [hform]
    decide
  · decide

end CacheWarden

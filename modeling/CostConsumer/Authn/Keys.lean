import CostConsumer.Foundation.Transition
import Mathlib.Logic.Function.Basic
set_option autoImplicit false

/-!
The signing keys of the API's token check. The keys that a JWKS response publishes are
stored by their key id; a token with a stored key id is checked with the stored key,
and only a token with another key id makes the middleware ask for the keys again.
-/

namespace CostConsumer.Authn
open Foundation

structure PublicKey where
  n : Nat
  e : Int64
  deriving DecidableEq

structure JwkKey where
  kty : String
  kid : String
  n : String
  e : String
  deriving DecidableEq

/-- The value of a digit of the URL alphabet of base 64. -/
def decodeChar (c : Char) : Option Nat :=
  if 'A' ≤ c ∧ c ≤ 'Z' then some (c.toNat - 65)
  else if 'a' ≤ c ∧ c ≤ 'z' then some (c.toNat - 97 + 26)
  else if '0' ≤ c ∧ c ≤ '9' then some (c.toNat - 48 + 52)
  else if c = '-' then some 62
  else if c = '_' then some 63
  else none

/-- Four digits are three bytes; without padding two or three digits may be left. -/
def decodeQuanta : List Nat → Option (List Nat)
  | [] => some []
  | [_] => none
  | [a,b] => some [a*4 + b/16]
  | [a,b,c] => some [a*4 + b/16,b%16*16 + c/4]
  | a :: b :: c :: d :: rest =>
    (decodeQuanta rest).map ([a*4 + b/16,b%16*16 + c/4,c%4*64 + d] ++ ·)

/-- `base64.RawURLEncoding`, which skips line ends. -/
def decodeString (s : String) : Option (List Nat) :=
  ((s.toList.filter fun c => c ≠ '\n' ∧ c ≠ '\r').mapM decodeChar).bind decodeQuanta

inductive ParseError where
  | decodingN : ParseError
  | decodingE : ParseError
  deriving DecidableEq

/-- The exponent is a machine word: the bytes before its last eight are shifted out. -/
def parseRSAPublicKey (nB64 eB64 : String) : Except ParseError PublicKey :=
  match decodeString nB64, decodeString eB64 with
  | none, _ => .error .decodingN
  | some _, none => .error .decodingE
  | some nBytes, some eBytes => .ok ⟨nBytes.foldl (fun n b => n*256 + b) 0,
      eBytes.foldl (fun e b => (e <<< 8) + Int64.ofNat b) 0⟩

abbrev Keys := String → Option PublicKey

inductive Response where
  | unreachable : Response
  | status (code : Nat) : Response
  | undecodable : Response
  | ok (keys : List JwkKey) : Response

inductive RefreshError where
  | unreachable : RefreshError
  | status (code : Nat) : RefreshError
  | undecodable : RefreshError
  deriving DecidableEq

def usableKey (key : JwkKey) : Option PublicKey :=
  if key.kty ≠ "RSA" ∨ key.kid = "" then none
  else match parseRSAPublicKey key.n key.e with
    | .error _ => none
    | .ok rsaKey => some rsaKey

def store (keys : Keys) (key : JwkKey) : Keys :=
  match usableKey key with
  | none => keys
  | some rsaKey => Function.update keys key.kid (some rsaKey)

def refreshKeys (keys : Keys) : Response → Except RefreshError Keys
  | .unreachable => .error .unreachable
  | .status code => .error (.status code)
  | .undecodable => .error .undecodable
  | .ok jwks => .ok (jwks.foldl store keys)

/-- What `New` leaves in the map, after discovery. -/
def new (response : Response) : Except RefreshError Keys := refreshKeys (fun _ => none) response

inductive SigningMethod where
  | rsa : SigningMethod
  | rsaPSS : SigningMethod
  | ecdsa : SigningMethod
  | ed25519 : SigningMethod
  | hmac : SigningMethod
  | none : SigningMethod
  deriving DecidableEq

/-- A token that could be parsed. `method` is the method of its `alg`, if there is one;
`signature` stands for the signed text and its signature. -/
structure Token where
  method : Option SigningMethod
  kid : Option String
  issuer : Option String
  expiresAt : Option Int
  notBefore : Option Int
  signature : Nat
  deriving DecidableEq

inductive AuthError where
  | malformed : AuthError
  | unavailableMethod : AuthError
  | unexpectedMethod : AuthError
  | missingKid : AuthError
  | refreshFailed (error : RefreshError) : AuthError
  | unknownKid (kid : String) : AuthError
  | signatureInvalid : AuthError
  | claimsInvalid : AuthError
  deriving DecidableEq

structure Config where
  issuerURL : String
  verify : PublicKey → Token → Bool

/-- `response` is what the endpoint answers if it is asked. -/
def loadKey (keys : Keys) (response : Response) (kid : String) : Keys × Except AuthError PublicKey :=
  match keys kid with
  | some key => (keys,.ok key)
  | none => match refreshKeys keys response with
    | .error e => (keys,.error (.refreshFailed e))
    | .ok keys' => match keys' kid with
      | some key => (keys',.ok key)
      | none => (keys',.error (.unknownKid kid))

/-- The function that finds the key of a token, with what it leaves in the map. -/
def keyFunc (keys : Keys) (response : Response) (token : Token) : Keys × Except AuthError PublicKey :=
  if token.method ≠ some .rsa then (keys,.error .unexpectedMethod)
  else if token.kid.getD "" = "" then (keys,.error .missingKid)
  else loadKey keys response (token.kid.getD "")

/-- Issuer and expiry are required, `nbf` is looked at where it is given. -/
def validClaims (c : Config) (now : Int) (token : Token) : Bool :=
  token.expiresAt.any (now < ·) && token.notBefore.all (· ≤ now) && token.issuer = some c.issuerURL

structure Request where
  now : Int
  response : Response
  bearer : Option Token

def validateToken (c : Config) (keys : Keys) (r : Request) : Keys × Except AuthError Token :=
  match r.bearer with
  | none => (keys,.error .malformed)
  | some token =>
    if token.method = none then (keys,.error .unavailableMethod)
    else match keyFunc keys r.response token with
      | (keys',.error e) => (keys',.error e)
      | (keys',.ok key) =>
        if !c.verify key token then (keys',.error .signatureInvalid)
        else if !validClaims c r.now token then (keys',.error .claimsInvalid)
        else (keys',.ok token)

def step (c : Config) (keys : Keys) (r : Request) : Option Keys := some (validateToken c keys r).1

/-- The token's key id is given and not in the map. -/
def unknown (keys : Keys) (token : Token) : Bool :=
  token.method = some .rsa && token.kid.getD "" ≠ "" && keys (token.kid.getD "") = none

def Response.keySet : Response → Option (List JwkKey)
  | .ok jwks => some jwks
  | _ => none

/-- The key set that a request's refresh returned, if it made one that succeeded. -/
def refreshed (keys : Keys) (r : Request) : Option (List JwkKey) :=
  r.bearer.bind fun token => if unknown keys token then r.response.keySet else none

def Published (jwks : List JwkKey) (kid : String) (key : PublicKey) : Prop :=
  ∃ entry ∈ jwks, entry.kid = kid ∧ usableKey entry = some key

def AcceptedWith (c : Config) (keys : Keys) (r : Request) (kid : String) (key : PublicKey) : Prop :=
  ∃ token, r.bearer = some token ∧ token.kid = some kid ∧
    (keyFunc keys r.response token).2 = .ok key ∧ (validateToken c keys r).2 = .ok token

theorem foldl_store (jwks : List JwkKey) (keys : Keys) (kid : String) :
    (∃ key, jwks.foldl store keys kid = some key ∧ Published jwks kid key) ∨
      jwks.foldl store keys kid = keys kid ∧ ∀ key, ¬ Published jwks kid key := by
  induction jwks generalizing keys with
  | nil => exact .inr ⟨rfl,fun key ⟨_,hentry,_⟩ => nomatch hentry⟩
  | cons entry jwks ih =>
    rw [List.foldl_cons]
    rcases ih (store keys entry) with ⟨key,hkey,old,hold,hboth⟩ | ⟨hsame,hno⟩
    · exact .inl ⟨key,hkey,old,List.mem_cons_of_mem _ hold,hboth⟩
    · rw [hsame]
      -- no later entry has the key id: this one decides
      cases hu : usableKey entry with
      | none =>
        refine .inr ⟨by rw [store,hu],fun key ⟨old,hold,hkid,hkey⟩ => ?_⟩
        rcases List.mem_cons.mp hold with rfl | hold
        · rw [hu] at hkey
          cases hkey
        · exact hno key ⟨old,hold,hkid,hkey⟩
      | some rsaKey =>
        by_cases hkid : entry.kid = kid
        · exact .inl ⟨rsaKey,by simp [store,hu,hkid],entry,List.mem_cons_self,hkid,hu⟩
        · refine .inr ⟨by simp [store,hu,Function.update_of_ne (Ne.symm hkid)],
            fun key ⟨old,hold,hk,hkey⟩ => ?_⟩
          rcases List.mem_cons.mp hold with rfl | hold
          · exact hkid hk
          · exact hno key ⟨old,hold,hk,hkey⟩

theorem foldl_store_eq_iff {jwks : List JwkKey} {keys : Keys} {kid : String} {key : PublicKey}
    (hw : ¬ Published jwks kid key) : jwks.foldl store keys kid = some key ↔
      keys kid = some key ∧ ∀ other, ¬ Published jwks kid other := by
  rcases foldl_store jwks keys kid with ⟨new,hnew,hpub⟩ | ⟨hsame,hno⟩
  · rw [hnew]
    constructor
    · rintro ⟨⟩
      exact absurd hpub hw
    · intro h
      exact absurd hpub (h.2 new)
  · rw [hsame]
    exact ⟨fun h => ⟨h,hno⟩,And.left⟩

section Validation
variable {c : Config} {keys : Keys} {r : Request} {kid : String} {key : PublicKey}

theorem loadKey_unknown {response : Response} (h : keys kid = none) :
    (loadKey keys response kid).1 = (response.keySet.map (·.foldl store keys)).getD keys := by
  cases response with
  | ok jwks =>
    simp only [loadKey,h,refreshKeys]
    split <;> rfl
  | _ => simp only [loadKey,h,refreshKeys]; rfl

theorem loadKey_stored {response : Response} (h : (loadKey keys response kid).2 = .ok key) :
    (loadKey keys response kid).1 kid = some key := by
  unfold loadKey at h ⊢
  split at h
  · rename_i old hold
    cases h
    exact hold
  · split at h
    · cases h
    · split at h
      · rename_i new hnew
        cases h
        exact hnew
      · cases h

theorem keyFunc_keys (keys : Keys) (response : Response) (token : Token) :
    (keyFunc keys response token).1 =
      (((if unknown keys token then response.keySet else none).map (·.foldl store keys)).getD keys) := by
  unfold keyFunc unknown
  by_cases hm : token.method = some .rsa
  · by_cases hk : token.kid.getD "" = ""
    · simp [hm,hk]
    · cases hkey : keys (token.kid.getD "") with
      | some key => simp [hm,hk,hkey,loadKey]
      | none => simpa [hm,hk,hkey] using loadKey_unknown hkey
  · simp [hm]

theorem keyFunc_stored {response : Response} {token : Token}
    (h : (keyFunc keys response token).2 = .ok key) :
    (keyFunc keys response token).1 (token.kid.getD "") = some key := by
  unfold keyFunc at h ⊢
  by_cases hm : token.method ≠ some .rsa
  · rw [if_pos hm] at h
    cases h
  · rw [if_neg hm] at h ⊢
    split at h
    · cases h
    · rename_i hk
      rw [if_neg hk]
      exact loadKey_stored h

theorem validateToken_keys {token : Token} (hb : r.bearer = some token) :
    (validateToken c keys r).1 = (keyFunc keys r.response token).1 := by
  simp only [validateToken,hb]
  by_cases hm : token.method = none
  · simp [keyFunc,hm]
  · rw [if_neg hm]
    split
    · rename_i h
      rw [h]
    · rename_i h
      rw [h]
      split_ifs <;> rfl

theorem validateToken_refreshed (c : Config) (keys : Keys) (r : Request) :
    (validateToken c keys r).1 = ((refreshed keys r).map (·.foldl store keys)).getD keys := by
  cases hb : r.bearer with
  | none => simp [validateToken,refreshed,hb]
  | some token =>
    rw [validateToken_keys hb,refreshed,hb,Option.bind_some,keyFunc_keys]

theorem AcceptedWith.stored (h : AcceptedWith c keys r kid key) :
    (validateToken c keys r).1 kid = some key := by
  obtain ⟨token,hb,hkid,hkey,-⟩ := h
  have hs := keyFunc_stored hkey
  rwa [hkid,Option.getD_some,← validateToken_keys (c := c) hb] at hs

def NotPublished (kid : String) (key : PublicKey) (keys : Keys) (r : Request) : Prop :=
  ∀ jwks, refreshed keys r = some jwks → ¬ Published jwks kid key

theorem NotPublished.keeps_out (h : NotPublished kid key keys r) (hk : keys kid ≠ some key) :
    (validateToken c keys r).1 kid ≠ some key := by
  rw [validateToken_refreshed]
  cases hr : refreshed keys r with
  | none => exact hk
  | some jwks =>
    rw [Option.map_some,Option.getD_some]
    exact fun hnew => hk ((foldl_store_eq_iff (h jwks hr)).mp hnew).1

structure Signed (c : Config) (now : Int) (token : Token) (kid : String) (key : PublicKey) : Prop where
  method : token.method = some .rsa
  named : token.kid = some kid
  nonempty : kid ≠ ""
  verify : c.verify key token = true
  claims : validClaims c now token = true

theorem Signed.accepted {now : Int} {token : Token} (h : Signed c now token kid key)
    (hk : keys kid = some key) (response : Response) :
    AcceptedWith c keys ⟨now,response,some token⟩ kid key := by
  have hkey : keyFunc keys response token = (keys,.ok key) := by
    simp [keyFunc,h.method,h.named,h.nonempty,loadKey,hk]
  refine ⟨token,rfl,h.named,by rw [hkey],?_⟩
  simp [validateToken,h.method,hkey,h.verify,h.claims]

theorem Signed.known {now : Int} {token : Token} (h : Signed c now token kid key)
    (hk : keys kid = some key) (response : Response) : refreshed keys ⟨now,response,some token⟩ = none := by
  simp [refreshed,unknown,h.method,h.named,hk]

end Validation

/-- After a refresh whose key set does not have a key under a key id, no token is
accepted with that key until it is published again, if and only if the map did not
have it or the key set has another key under the key id. -/
theorem withdrawn_key_rejected_iff {c : Config} {keys : Keys} {r : Request} {jwks : List JwkKey}
    {kid : String} {key : PublicKey} (hr : refreshed keys r = some jwks) (hw : ¬ Published jwks kid key)
    (hsign : ∃ now token, Signed c now token kid key) :
    (∀ later, Reachable (step c) (· = (validateToken c keys r).1) (NotPublished kid key) later →
      ∀ request, NotPublished kid key later request → ¬ AcceptedWith c later request kid key) ↔
    (keys kid = some key → ∃ other, Published jwks kid other) := by
  have hkeys : (validateToken c keys r).1 = jwks.foldl store keys := by
    rw [validateToken_refreshed,hr]
    rfl
  constructor
  · intro hnever hk
    by_contra hno
    obtain ⟨now,token,hs⟩ := hsign
    have hstill : (validateToken c keys r).1 kid = some key := by
      rw [hkeys]
      exact (foldl_store_eq_iff hw).mpr ⟨hk,not_exists.mp hno⟩
    refine hnever _ (.start rfl) ⟨now,.unreachable,some token⟩ (fun jwks h => ?_)
      (hs.accepted hstill .unreachable)
    rw [hs.known hstill] at h
    cases h
  · intro hcond later hl request hq haccepted
    have hout : later kid ≠ some key := by
      refine hl.invariant (P := fun keys => keys kid ≠ some key) (fun u hu hstill => ?_) fun u q v hu hno hst => ?_
      · rw [hu,hkeys] at hstill
        obtain ⟨hk,hnone⟩ := (foldl_store_eq_iff hw).mp hstill
        obtain ⟨other,hpub⟩ := hcond hk
        exact hnone other hpub
      · cases hst
        exact hno.keeps_out hu
    exact hq.keeps_out hout haccepted.stored

/-- A check that takes the modulus for the signature. -/
def demo : Config := ⟨"https://issuer",fun key token => token.signature = key.n⟩

def rsaEntry (kid n : String) : JwkKey := ⟨"RSA",kid,n,"AQAB"⟩

def oldKey : PublicKey := ⟨1,65537⟩

def tokenFor (kid : String) (signature : Nat) : Token :=
  ⟨some .rsa,some kid,some "https://issuer",some 100,none,signature⟩

/-- The map after a start at which the old key was published as "a". -/
def started : Keys := [rsaEntry "a" "AQ"].foldl store fun _ => none

/-- A token for the key id "b", at which the keys are asked for again. -/
def rotate (jwks : List JwkKey) : Request := ⟨0,.ok jwks,some (tokenFor "b" 2)⟩

theorem refreshed_rotate (jwks : List JwkKey) : refreshed started (rotate jwks) = some jwks := by
  have hb : unknown started (tokenFor "b" 2) = true := by decide +kernel
  rw [refreshed,rotate,Option.bind_some,if_pos hb]
  rfl

theorem signed_demo : Signed demo 0 (tokenFor "a" 1) "a" oldKey :=
  ⟨rfl,rfl,by decide,by decide +kernel,by decide +kernel⟩

instance (jwks : List JwkKey) (kid : String) (key : PublicKey) : Decidable (Published jwks kid key) :=
  inferInstanceAs (Decidable (∃ entry ∈ jwks, entry.kid = kid ∧ usableKey entry = some key))

def replacement : List JwkKey := [rsaEntry "a" "Ag",rsaEntry "b" "Aw"]

theorem replaced_key_rejected : started "a" = some oldKey ∧
    refreshed started (rotate replacement) = some replacement ∧ ¬ Published replacement "a" oldKey ∧
    ∀ later, Reachable (step demo) (· = (validateToken demo started (rotate replacement)).1)
        (NotPublished "a" oldKey) later →
      ∀ request, NotPublished "a" oldKey later request → ¬ AcceptedWith demo later request "a" oldKey := by
  have hr : refreshed started (rotate replacement) = some replacement := refreshed_rotate replacement
  have hw : ¬ Published replacement "a" oldKey := by decide +kernel
  refine ⟨by decide +kernel,hr,hw,(withdrawn_key_rejected_iff hr hw ⟨0,_,signed_demo⟩).mpr fun _ => ?_⟩
  exact ⟨⟨2,65537⟩,rsaEntry "a" "Ag",List.mem_cons_self,rfl,by decide +kernel⟩

/-- The keys were read again without the old key, and tokens are accepted with it. -/
def StillAccepted (jwks : List JwkKey) : Prop :=
  refreshed started (rotate jwks) = some jwks ∧ ¬ Published jwks "a" oldKey ∧
    ∀ response, AcceptedWith demo (validateToken demo started (rotate jwks)).1
      ⟨0,response,some (tokenFor "a" 1)⟩ "a" oldKey

theorem stillAccepted_of_kept {jwks : List JwkKey} (hw : ¬ Published jwks "a" oldKey)
    (hk : jwks.foldl store started "a" = some oldKey) : StillAccepted jwks := by
  refine ⟨refreshed_rotate jwks,hw,signed_demo.accepted ?_⟩
  rw [validateToken_refreshed,refreshed_rotate]
  exact hk

/-- The entry of the old key is gone, or it is one of an elliptic curve key. -/
theorem withdrawn_key_accepted : new (.ok [rsaEntry "a" "AQ"]) = .ok started ∧
    StillAccepted [rsaEntry "b" "Ag"] ∧ StillAccepted [rsaEntry "b" "Ag",⟨"EC","a","",""⟩] :=
  ⟨rfl,stillAccepted_of_kept (by decide +kernel) (by decide +kernel),
    stillAccepted_of_kept (by decide +kernel) (by decide +kernel)⟩

end CostConsumer.Authn

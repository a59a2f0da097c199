import Federation.Certificate.ObjectId

/-
  This file defines the names that object identifiers are
  registered by, and the names that attributes are shown by.

  Key definitions include:
    * `ObjectId.abbreviations`
    * `ObjectId.registeredNames`
    * `ObjectId.attributeName`
-/

namespace Federation

namespace ObjectId

------------------------------------------------------------
-- Families
------------------------------------------------------------

/- The identifier of an attribute of the directory. -/
def directory (n : Nat) : ObjectId := ofArcs 2 5 [4, n]

/- The identifier of an attribute of the pilot directory. -/
def pilot (n : Nat) : ObjectId :=
  ofArcs 0 9 [2342, 19200300, 100, 1, n]

/- The identifier of an extension of certificates. -/
def extension (n : Nat) : ObjectId := ofArcs 2 5 [29, n]

/- The identifier of a way to get information on a certificate. -/
def access (n : Nat) : ObjectId :=
  ofArcs 1 3 [6, 1, 5, 5, 7, 48, n]

/- The identifier in a part of the standards for public keys. -/
def publicKeyStandard (rest : List Nat) : ObjectId :=
  ofArcs 1 2 ([840, 113549, 1] ++ rest)

/- The identifier of a place of incorporation. -/
def jurisdiction (n : Nat) : ObjectId :=
  ofArcs 1 3 [6, 1, 4, 1, 311, 60, 2, 1, n]

/- The identifier of a national standard algorithm. -/
def nationalAlgorithm (rest : List Nat) : ObjectId :=
  ofArcs 2 16 ([840, 1, 101, 3, 4] ++ rest)

------------------------------------------------------------
-- Names
------------------------------------------------------------

/- The attributes that have a shorter name than registered. -/
def abbreviations : List (ObjectId × String) :=
  [ (directory 3, "CN"),
    (directory 6, "C"),
    (directory 7, "L"),
    (directory 8, "ST"),
    (directory 10, "O"),
    (directory 11, "OU"),
    (pilot 25, "DC"),
    (publicKeyStandard [9, 1], "Email") ]

/- The registered attributes of directories. -/
def directoryNames : List (ObjectId × String) :=
  [ (ofArcs 2 5 [4], "x509"),
    (directory 0, "objectClass"),
    (directory 1, "aliasedEntryName"),
    (directory 2, "knowledgeInformation"),
    (directory 4, "surname"),
    (directory 5, "serialNumber"),
    (directory 9, "streetAddress"),
    (directory 12, "title"),
    (directory 13, "description"),
    (directory 14, "searchGuide"),
    (directory 15, "businessCategory"),
    (directory 16, "postalAddress"),
    (directory 17, "postalCode"),
    (directory 41, "name"),
    (directory 42, "givenName"),
    (directory 43, "initials"),
    (directory 44, "generationQualifier"),
    (directory 45, "uniqueIdentifier"),
    (directory 46, "dnQualifier"),
    (pilot 1, "uid"),
    (jurisdiction 1, "msJurisdictionLocality"),
    (jurisdiction 2, "msJurisdictionStateOrProvince"),
    (jurisdiction 3, "msJurisdictionCountry") ]

/- The registered extensions of certificates. -/
def extensionNames : List (ObjectId × String) :=
  [ (extension 9, "subjectDirectoryAttributes"),
    (extension 14, "subjectKeyIdentifier"),
    (extension 15, "keyUsage"),
    (extension 16, "privateKeyUsagePeriod"),
    (extension 17, "subjectAltName"),
    (extension 18, "issuerAltName"),
    (extension 19, "basicConstraints"),
    (extension 20, "crlNumber"),
    (extension 21, "reasonCode"),
    (extension 23, "holdInstructionCode"),
    (extension 24, "invalidityDate"),
    (extension 27, "deltaCRLIndicator"),
    (extension 28, "issuingDistributionPoint"),
    (extension 29, "certificateIssuer"),
    (extension 30, "nameConstraints"),
    (extension 31, "crlDistributionPoints"),
    (extension 32, "certificatePolicies"),
    (extension 33, "policyMappings"),
    (extension 35, "authorityKeyIdentifier"),
    (extension 36, "policyConstraints"),
    (extension 37, "extendedKeyUsage"),
    (extension 46, "freshestCRL"),
    (extension 54, "inhibitAnyPolicy"),
    (ofArcs 2 16 [840, 1, 113730, 1, 1], "nsCertType"),
    (ofArcs 2 16 [840, 1, 113730, 1, 13], "nsComment"),
    (ofArcs 1 3 [6, 1, 4, 1, 11129, 2, 4, 2], "ctSCTList"),
    (ofArcs 1 3 [6, 1, 5, 5, 7, 1, 1], "authorityInfoAccess"),
    (ofArcs 1 3 [6, 1, 5, 5, 7, 1, 11], "subjectInfoAccess"),
    (access 1, "id-ad-ocsp"),
    (access 2, "id-ad-caIssuers"),
    (access 3, "id-ad-timeStamping"),
    (access 4, "id-ad-dvcs"),
    (access 5, "id-ad-caRepository"),
    (access 6, "id-ad-http-certs"),
    (access 7, "id-ad-http-crls"),
    (access 10, "id-ad-rpkiManifest"),
    (access 11, "id-ad-signedObject"),
    (access 13, "id-ad-rpkiNotify"),
    (access 14, "id-ad-stirTNList") ]

/- The registered keys, hashes and signatures. -/
def algorithmNames : List (ObjectId × String) :=
  [ (publicKeyStandard [1, 1], "rsaEncryption"),
    (publicKeyStandard [1, 2], "md2WithRSAEncryption"),
    (publicKeyStandard [1, 3], "md4WithRSAEncryption"),
    (publicKeyStandard [1, 4], "md5WithRSAEncryption"),
    (publicKeyStandard [1, 5], "sha1WithRSAEncryption"),
    (publicKeyStandard [1, 10], "rsassa-pss"),
    (publicKeyStandard [1, 11], "sha256WithRSAEncryption"),
    (publicKeyStandard [1, 12], "sha384WithRSAEncryption"),
    (publicKeyStandard [1, 13], "sha512WithRSAEncryption"),
    (publicKeyStandard [1, 14], "sha224WithRSAEncryption"),
    (ofArcs 1 2 [840, 10040, 4, 1], "dsa"),
    (ofArcs 1 2 [840, 10040, 4, 3], "dsa-with-sha1"),
    (ofArcs 1 2 [840, 10045, 2, 1], "id-ecPublicKey"),
    (ofArcs 1 2 [840, 10045, 3, 1, 7], "prime256v1"),
    (ofArcs 1 2 [840, 10045, 4, 3, 1], "ecdsa-with-SHA224"),
    (ofArcs 1 2 [840, 10045, 4, 3, 2], "ecdsa-with-SHA256"),
    (ofArcs 1 2 [840, 10045, 4, 3, 3], "ecdsa-with-SHA384"),
    (ofArcs 1 2 [840, 10045, 4, 3, 4], "ecdsa-with-SHA512"),
    (ofArcs 1 3 [132, 0, 34], "secp384r1"),
    (ofArcs 1 3 [132, 0, 35], "secp521r1"),
    (ofArcs 1 3 [101, 112], "ed25519"),
    (ofArcs 1 3 [101, 113], "ed448"),
    (ofArcs 1 3 [14, 3, 2, 26], "id-SHA1"),
    (ofArcs 1 3 [14, 3, 2, 29], "sha1-with-rsa-signature"),
    (ofArcs 1 3 [36, 3, 3, 1, 2],
      "rsaSignatureWithripemd160"),
    (ofArcs 1 2 [643, 2, 2, 3],
      "gostR3411-94-with-gostR3410-2001"),
    (ofArcs 1 2 [643, 2, 2, 19], "gostR3410-2001"),
    (ofArcs 1 2 [643, 7, 1, 1, 1, 1], "gost3410-12-256"),
    (ofArcs 1 2 [643, 7, 1, 1, 1, 2], "gost3410-12-512"),
    (ofArcs 1 3 [133, 16, 840, 63, 0, 2],
      "dhSinglePass-stdDH-sha1kdf-scheme"),
    (ofArcs 1 3 [132, 1, 11, 0],
      "dhSinglePass-stdDH-sha224kdf-scheme"),
    (ofArcs 1 3 [132, 1, 11, 1],
      "dhSinglePass-stdDH-sha256kdf-scheme"),
    (ofArcs 1 3 [132, 1, 11, 2],
      "dhSinglePass-stdDH-sha384kdf-scheme"),
    (ofArcs 1 3 [132, 1, 11, 3],
      "dhSinglePass-stdDH-sha512kdf-scheme"),
    (nationalAlgorithm [1, 42], "aes-256-cbc"),
    (nationalAlgorithm [2, 1], "sha256"),
    (nationalAlgorithm [2, 2], "sha384"),
    (nationalAlgorithm [2, 3], "sha512") ]

/- The registered parts of signed messages and key stores. -/
def messageNames : List (ObjectId × String) :=
  [ (publicKeyStandard [7, 1], "pkcs7-data"),
    (publicKeyStandard [7, 2], "pkcs7-signedData"),
    (publicKeyStandard [7, 3], "pkcs7-envelopedData"),
    (publicKeyStandard [7, 4], "pkcs7-signedAndEnvelopedData"),
    (publicKeyStandard [7, 5], "pkcs7-digestedData"),
    (publicKeyStandard [7, 6], "pkcs7-encryptedData"),
    (publicKeyStandard [9, 2], "unstructuredName"),
    (publicKeyStandard [9, 3], "contentType"),
    (publicKeyStandard [9, 4], "id-messageDigest"),
    (publicKeyStandard [9, 5], "signing-time"),
    (publicKeyStandard [9, 7], "challengePassword"),
    (publicKeyStandard [9, 14], "extensionRequest"),
    (publicKeyStandard [9, 15], "smimeCapabilities"),
    (publicKeyStandard [9, 20], "friendlyName"),
    (publicKeyStandard [12], "pkcs-12"),
    (publicKeyStandard [12, 1], "pkcs-12PbeIds"),
    (publicKeyStandard [12, 1, 1], "pbeWithSHAAnd128BitRC4"),
    (publicKeyStandard [12, 1, 2], "pbeWithSHAAnd40BitRC4"),
    (publicKeyStandard [12, 1, 3],
      "pbeWithSHAAnd3-KeyTripleDES-CBC"),
    (publicKeyStandard [12, 1, 4],
      "pbeWithSHAAnd2-KeyTripleDES-CBC"),
    (publicKeyStandard [12, 1, 5],
      "pbeWithSHAAnd128BitRC2-CBC"),
    (publicKeyStandard [12, 1, 6],
      "pbeWithSHAAnd40BitRC2-CBC") ]

/- The names that identifiers are registered by. -/
def registeredNames : List (ObjectId × String) :=
  directoryNames ++ extensionNames ++ algorithmNames ++
    messageNames

/-
  The name that an attribute is shown by: its abbreviation,
  its registered name, or its numbers.
-/
def attributeName (id : ObjectId) : String :=
  match (abbreviations ++ registeredNames).lookup id with
  | some name => name
  | none => s!"OID({id.display})"

end ObjectId

end Federation

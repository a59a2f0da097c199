import Federation.Certificate.Gate
import Federation.Pointer
import Federation.Registry.Basic

/-
  This file defines where a registry holds certificates, and
  the check that each of them passes the gate.

  Key definitions include:
    * `Registry.certificates`
    * `Registry.verify`
-/

namespace Federation

/- A certificate and where it is. -/
abbrev Occurrence := Pointer × CertificateBytes

namespace Occurrence

/- What is found in each item at its place. -/
def inItems
    {α : Type}
    (place : Pointer)
    (occurrences : Pointer → α → List Occurrence)
    (items : List α) : List Occurrence :=
  items.zipIdx.flatMap fun (item, i) =>
    occurrences (place.index i) item

/- A certificate at its place. -/
def single
    (place : Pointer)
    (cert : CertificateBytes) : List Occurrence :=
  [(place, cert)]

end Occurrence

open Occurrence

/- The certificates of a list of certificates at a key. -/
def Occurrence.inCerts
    (place : Pointer)
    (key : String)
    (certs : List CertificateBytes) : List Occurrence :=
  inItems (place.key key) single certs

/- The certificate of a responder. -/
def OcspResponder.certificates
    (place : Pointer)
    (r : OcspResponder) : List Occurrence :=
  r.cert.toList.map fun cert => (place.key "cert", cert)

/- The certificate of an authority, and of its responders. -/
def CaInfo.certificates
    (place : Pointer)
    (c : CaInfo) : List Occurrence :=
  (place.key "cert", c.cert) ::
    inItems (place.key "ocsp") OcspResponder.certificates
      c.ocsp

/- The certificates of an authority, the anchor first. -/
def CertificationAuthority.certificates
    (place : Pointer)
    (a : CertificationAuthority) : List Occurrence :=
  a.topCa.certificates (place.key "topCa") ++
    inItems (place.key "intermediateCas") CaInfo.certificates
      a.intermediateCas

namespace Registry

/- Every certificate of a registry, in a fixed order. -/
def certificates (r : Registry) : List Occurrence :=
  inItems [.key "configurationSources"]
      (fun place source =>
        inCerts place "verificationCerts"
          source.verificationCerts)
      r.configurationSources ++
    [ ( [.key "managementService",
          .key "authCertRegServiceCert"],
        r.managementService.authCertRegServiceCert ) ] ++
    inItems [.key "securityServers"]
      (fun place server =>
        inCerts place "authCerts" server.authCerts)
      r.securityServers ++
    inItems [.key "certificationAuthorities"]
      CertificationAuthority.certificates
      r.certificationAuthorities ++
    inItems [.key "timestampingAuthorities"]
      (fun place authority =>
        single (place.key "cert") authority.cert)
      r.timestampingAuthorities

/- The gate for the certificates at places, in their order. -/
def verifyAll :
    List Occurrence → Except CertificateError Unit
| [] => .ok ()
| (place, cert) :: rest =>
    match Certificate.accept Check.general place.label
        cert.bytes with
    | .error fault => .error fault
    | .ok _ => verifyAll rest

/- Every certificate of a registry passes the gate. -/
def verify (r : Registry) : Except CertificateError Unit :=
  verifyAll r.certificates

end Registry

end Federation

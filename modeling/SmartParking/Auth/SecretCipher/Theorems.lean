import SmartParking.Auth.SecretCipher

namespace SmartParking.Auth

namespace AesGcmSecretCipherAdapter

variable {gcm : AesGcm} {key : List UInt8}

end AesGcmSecretCipherAdapter

end SmartParking.Auth
